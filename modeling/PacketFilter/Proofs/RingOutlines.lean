import PacketFilter.Machine.Memory
import PacketFilter.Proofs.Maps

/-!
# What becomes of rings

Of a ring, all but the bytes of its records and the count of its refusals is its
outline: which positions have been claimed, and how far each slot has got.  Only
claims and completions change outlines.  Programs write bytes into records, and
ask rings in vain for what other maps do, without changing any.
-/

namespace PacketFilter

/-! ## Rings of a store -/

/-- The slot but for the record in it. -/
def RingSlot.outline (slot : RingSlot) : RingSlot :=
  { slot with length := 0, cell := ⟨#[]⟩ }

namespace Ring

/-- The ring but for its records and its refusals. -/
def outline (ring : Ring) : Ring :=
  { ring with slots := ring.slots.map RingSlot.outline, refused := 0 }

theorem capacity_outline (ring : Ring) : ring.outline.capacity = ring.capacity :=
  Array.size_map ..

theorem outline_modifySlot
    {change : RingSlot → RingSlot} (ring : Ring) (position : Nat)
    (same : ∀ slot, (change slot).outline = slot.outline) :
    (ring.modifySlot position change).outline = ring.outline := by
  rw [outline, outline, Ring.mk.injEq]
  refine ⟨rfl, Array.ext_getElem? fun index => ?_, rfl, rfl, rfl⟩
  rw [modifySlot, Array.getElem?_map, Array.getElem?_map, Array.getElem?_modify]
  split
  · rw [Option.map_map]
    exact congrArg (Option.map · _) (funext same)
  · rfl

theorem outline_setCell (ring : Ring) (position : Nat) (cell : Cell) :
    (ring.setCell position cell).outline = ring.outline :=
  ring.outline_modifySlot position fun _ => rfl

/-- A claim that is refused changes no outline. -/
theorem outline_reserve_of_none
    {ring : Ring} {length : Nat} (refused : (ring.reserve length).1 = none) :
    (ring.reserve length).2.outline = ring.outline := by
  simp only [reserve] at refused ⊢
  split at refused
  · rw [if_pos ‹_›]
  · rw [if_neg ‹_›]
    split at refused
    · cases refused
    · rw [if_neg ‹_›]
      split <;> rfl

theorem outline_output_of_none
    {ring : Ring} {data : Bytes} (refused : (ring.output? data).1 = none) :
    (ring.output? data).2.outline = ring.outline := by
  simp only [output?] at refused ⊢
  split at refused
  case h_1 after claims =>
    have same := @outline_reserve_of_none ring data.size
    rw [claims] at same
    exact same rfl
  case h_2 => cases refused

end Ring

namespace Store

variable {store before between after : Store} {id other : MapId} {map changed : Map}

theorem ring?_setMap (there : store.map? id = some map) :
    (store.setMap id changed).ring? other =
      if id = other then changed.ring? else store.ring? other := by
  rw [ring?, map?_setMap there]
  split <;> rfl

theorem ring?_onRing
    {α : Type} (store : Store) (id : MapId) (change : Ring → α × Ring) (other : MapId) :
    (store.onRing id change).2.ring? other =
      if id = other then (store.ring? id).map fun ring =>
        (change ring).2 else store.ring? other := by
  rcases there : store.map? id with _ | map
  · have absent : store.ring? id = none := by rw [ring?, there, Option.bind_none]
    have same : (store.onRing id change).2 = store := by rw [onRing, there]
    rw [same]
    split
    case isTrue here => rw [← here, absent, Option.map_none]
    case isFalse => rfl
  · have here : store.ring? id = map.ring? := by rw [ring?, there, Option.bind_some]
    rw [onRing, there]
    show (store.setMap id (map.onRing change).2).ring? other = _
    rw [ring?_setMap there, here]
    split
    · rw [Map.onRing, Map.ring?, Map.ring?]
      cases held : map.content <;> simp [held, Map.setContent]
    · rfl

theorem ring?_modifyRing (store : Store) (id : MapId) (change : Ring → Ring) (other : MapId) :
    (store.modifyRing id change).ring? other =
      if id = other then (store.ring? id).map change else store.ring? other :=
  ring?_onRing store id _ other

/-- All rings have the outlines they had. -/
def SameRings (before after : Store) : Prop :=
  ∀ id, (after.ring? id).map Ring.outline = (before.ring? id).map Ring.outline

namespace SameRings

theorem refl (store : Store) : store.SameRings store :=
  fun _ => rfl

theorem trans (earlier : before.SameRings between) (later : between.SameRings after) :
    before.SameRings after :=
  fun id => (later id).trans (earlier id)

theorem setMap (there : store.map? id = some map) (same : changed.ring? = map.ring?) :
    store.SameRings (store.setMap id changed) := by
  intro other
  rw [ring?_setMap there]
  split
  case isTrue here => rw [← here, same, ring?, there, Option.bind_some]
  case isFalse => rfl

theorem setCell (store : Store) (id : CellId) (cell : Cell) :
    store.SameRings (store.setCell id cell) := by
  rcases there : store.map? id.map with _ | map
  · have same : store.maps.modify id.map (·.setCell id.number cell) = store.maps := by
      refine Array.ext_getElem? fun index => ?_
      rw [Array.getElem?_modify]
      split
      case isTrue here => rw [← here, show store.maps[id.map]? = none from there, Option.map_none]
      case isFalse => rfl
    rw [Store.setCell, same]
    exact refl store
  · rw [setCell_eq there]
    exact setMap there rfl

theorem onRing
    {α : Type} {change : Ring → α × Ring}
    (same : ∀ ring, store.ring? id = some ring → (change ring).2.outline = ring.outline) :
    store.SameRings (store.onRing id change).2 := by
  intro other
  rw [ring?_onRing]
  split
  case isTrue here =>
    rw [← here, Option.map_map]
    exact Option.map_congr fun ring there => same ring there
  case isFalse => rfl

/-- A ring that refuses keeps its outline. -/
theorem onRing_of_refused
    {change : Ring → Option Reservation × Ring}
    (same : ∀ ring, (change ring).1 = none → (change ring).2.outline = ring.outline)
    (refused : (store.onRing id change).1.join = none) :
    store.SameRings (store.onRing id change).2 := by
  refine onRing fun ring there => same ring ?_
  rw [onRing_fst, there, Option.map_some, Option.join_some] at refused
  exact refused

theorem modifyRing
    {change : Ring → Ring} (same : ∀ ring, (change ring).outline = ring.outline) (store : Store)
    (id : MapId) : store.SameRings (store.modifyRing id change) :=
  onRing fun ring _ => same ring

end SameRings

end Store

/-! ## Operations on maps -/

/-- Whatever map the operation is asked of, a ring stays what it is, and other maps do not become
rings. -/
def MapAction.SparesRing {α : Type} (action : MapAction α) : Prop :=
  ∀ map : Map, (action.run map).2.ring? = map.ring?

namespace MapAction.SparesRing

variable {α β : Type}

theorem pure (result : α) : MapAction.SparesRing (Pure.pure result) :=
  fun _ => rfl

theorem throw (error : MapError) :
    MapAction.SparesRing (MonadExcept.throw error : MapAction α) :=
  fun _ => rfl

theorem bind
    {action : MapAction α} {next : α → MapAction β}
    (first : action.SparesRing) (later : ∀ result, (next result).SparesRing) :
    MapAction.SparesRing (action >>= next) := by
  intro map
  have same := first map
  rw [Stateful.run_bind]
  split
  case h_1 result after equation =>
    rw [equation] at same
    exact (later result after).trans same
  case h_2 error after equation =>
    rw [equation] at same
    exact same

theorem get_bind
    {next : Map → MapAction β} (later : ∀ map : Map, ((next map).run map).2.ring? = map.ring?) :
    MapAction.SparesRing (get >>= next) := by
  intro map
  rw [Stateful.run_bind, Stateful.run_get]
  exact later map

theorem checkKey (key : Bytes) : (Map.checkKey key).SparesRing := by
  refine get_bind fun map => ?_
  dsimp only
  split <;> rfl

theorem checkValue (value : Bytes) : (Map.checkValue value).SparesRing := by
  refine get_bind fun map => ?_
  dsimp only
  split <;> rfl

theorem updateIndex (first length index : Nat) (value : Bytes) (mode : UpdateMode) :
    (Map.updateIndex first length index value mode).SparesRing := by
  intro map
  by_cases inside : index < length <;> by_cases taken : mode = .createOnly <;>
    simp [Map.updateIndex, inside, taken, Map.setCell, Map.ring?]

/-- What a table has become replaces a map that was no ring. -/
theorem keepFound
    {map : Map} {τ : Type} {content : τ → MapContent} {outcome : Option Nat × τ}
    (plain : map.ring? = none) (tables : ∀ table ring, content table ≠ .ringBuffer ring) :
    ((Map.keepFound content outcome).run map).2.ring? = map.ring? := by
  show Map.ring? (map.setContent (content outcome.2)) = _
  rw [plain, Map.ring?, Map.setContent]
  split
  case h_1 ring held => exact absurd held (tables _ ring)
  case h_2 => rfl

theorem keepUpdated
    {map : Map} {τ : Type} {content : τ → MapContent} {value : Bytes}
    {outcome : Except MapError Unit × τ}
    (plain : map.ring? = none) (tables : ∀ table ring, content table ≠ .ringBuffer ring) :
    ((Map.keepUpdated content value outcome).run map).2.ring? = map.ring? := by
  rcases outcome with ⟨error | _, table⟩
  · rfl
  · show Map.ring? ((map.addCell value).setContent (content table)) = _
    rw [plain, Map.ring?, Map.setContent]
    split
    case h_1 ring held => exact absurd held (tables _ ring)
    case h_2 => rfl

theorem findCell (key : Bytes) (worker : Nat) : (Map.findCell key worker).SparesRing := by
  refine get_bind fun map => ?_
  split
  case h_2 table held => exact keepFound (by rw [Map.ring?, held]) fun _ _ => by simp
  all_goals rfl

theorem lookupCell (key : Bytes) (worker : Nat) : (Map.lookupCell key worker).SparesRing :=
  bind (checkKey key) fun _ => findCell key worker

theorem updateEveryWorker
    (length index : Nat) (value : Bytes) (mode : UpdateMode) (turns : List Nat) :
    MapAction.SparesRing (turns.forM fun worker =>
      Map.updateIndex (worker * length) length index value mode) := by
  induction turns with
  | nil => exact pure ()
  | cons turn rest continues => exact bind (updateIndex _ _ _ _ _) fun _ => continues

theorem putValue (key value : Bytes) (mode : UpdateMode) :
    (Map.putValue key value mode).SparesRing := by
  refine get_bind fun map => ?_
  split
  case h_1 table held => exact keepUpdated (by rw [Map.ring?, held]) fun _ _ => by simp
  case h_2 table held => exact keepUpdated (by rw [Map.ring?, held]) fun _ _ => by simp
  case h_3 => exact updateIndex _ _ _ _ _ map
  case h_4 => exact updateEveryWorker _ _ _ _ _ map
  case h_5 => rfl

theorem update (key value : Bytes) (mode : UpdateMode) : (Map.update key value mode).SparesRing :=
  bind (checkKey key) fun _ => bind (checkValue value) fun _ => putValue key value mode

theorem updateFromWorker (key value : Bytes) (mode : UpdateMode) (worker : Nat) :
    (Map.updateFromWorker key value mode worker).SparesRing := by
  refine get_bind fun map => ?_
  split
  · refine bind (checkKey key) (fun _ => bind (checkValue value) fun _ => ?_) map
    split
    · exact updateIndex _ _ _ _ _
    · exact bind (throw _) fun _ => updateIndex _ _ _ _ _
  · exact update key value mode map

theorem delete (key : Bytes) : (Map.delete key).SparesRing := by
  refine bind (bind (checkKey key) fun _ => get_bind fun map => ?_) fun found => ?_
  · split
    case h_1 table held => exact keepFound (by rw [Map.ring?, held]) fun _ _ => by simp
    case h_2 table held => exact keepFound (by rw [Map.ring?, held]) fun _ _ => by simp
    case h_3 => rfl
  · split
    · exact throw _
    · exact pure ()

end MapAction.SparesRing

theorem Store.SameRings.onMap
    {α : Type} {action : MapAction α} (spares : action.SparesRing) (store : Store) (id : MapId) :
    store.SameRings ((Store.onMap id action).run store).2 := by
  rcases there : store.map? id with _ | map
  · simp only [Store.onMap, Stateful.run_bind, Stateful.run_get, there]
    exact refl store
  · rw [Store.run_onMap action there]
    exact setMap there (spares map)

/-! ## Memory -/

/-- The number of the record that the region is. -/
def Region.recordNumber? : Region → Option Nat
  | .mapValue _ => none
  | .record number => some number

namespace Memory

variable {before between after memory memory' : Memory} {address : Word} {length : Nat}
variable {change : Word → Word}

/-- The number of the record that starts at an address. -/
def recordNumber? (memory : Memory) (address : Word) : Option Nat :=
  if RegionAddress.offset address ≠ 0 then
    none
  else
    (memory.region? (RegionAddress.region address)).bind Region.recordNumber?

theorem release?_eq (memory : Memory) (address : Word) :
    memory.release? address =
      (memory.recordNumber? address).bind fun number =>
        (memory.record? number).map fun record =>
          (record, { memory with records := memory.records.setIfInBounds number none }) := by
  rw [release?, recordNumber?]
  split
  · rfl
  · rcases memory.region? (RegionAddress.region address) with _ | cell | number
    · rfl
    · rfl
    · exact Option.map_eq_bind.symm

/-- The records of a run are as they were, under the same addresses, and so are all rings but for
what is in the records. -/
structure Quiet (before after : Memory) : Prop where
  records : after.records = before.records
  numbers : after.recordNumber? = before.recordNumber?
  rings : before.store.SameRings after.store

theorem Quiet.refl (memory : Memory) : memory.Quiet memory :=
  ⟨rfl, rfl, .refl memory.store⟩

theorem Quiet.trans (earlier : before.Quiet between) (later : between.Quiet after) :
    before.Quiet after :=
  ⟨later.records.trans earlier.records, later.numbers.trans earlier.numbers,
    earlier.rings.trans later.rings⟩

theorem Quiet.setRecordCell (memory : Memory) (record : OpenRecord) (cell : Cell) :
    memory.Quiet (memory.setRecordCell record cell) :=
  ⟨rfl, rfl, .modifyRing (fun ring => ring.outline_setCell _ cell) _ _⟩

theorem Quiet.store
    {value : Word} (stored : memory.store? address length value = some memory') :
    memory.Quiet memory' := by
  simp only [store?] at stored
  split at stored
  · rcases Option.bind_eq_some_iff.mp stored with ⟨offset, _, stored⟩
    rcases Option.bind_eq_some_iff.mp stored with ⟨scratch, _, made⟩
    cases made
    exact ⟨rfl, rfl, .refl _⟩
  · split at stored
    · rcases Option.bind_eq_some_iff.mp stored with ⟨packet, _, made⟩
      cases made
      exact ⟨rfl, rfl, .refl _⟩
    · split at stored
      · rcases Option.bind_eq_some_iff.mp stored with ⟨stack, _, made⟩
        cases made
        exact ⟨rfl, rfl, .refl _⟩
      · split at stored
        · rcases Option.bind_eq_some_iff.mp stored with ⟨cell, _, stored⟩
          rcases Option.bind_eq_some_iff.mp stored with ⟨cell', _, made⟩
          cases made
          exact ⟨rfl, rfl, .setCell _ _ _⟩
        · rcases Option.bind_eq_some_iff.mp stored with ⟨⟨record, cell⟩, _, stored⟩
          rcases Option.bind_eq_some_iff.mp stored with ⟨cell', _, made⟩
          cases made
          exact .setRecordCell memory record cell'
        · cases stored

theorem Quiet.update
    {updated : Word × Memory} (changed : memory.update? address length change = some updated) :
    memory.Quiet updated.2 := by
  simp only [update?] at changed
  split at changed
  · rcases Option.bind_eq_some_iff.mp changed with ⟨bytes, _, changed⟩
    rcases Option.bind_eq_some_iff.mp changed with ⟨stack, _, made⟩
    cases made
    exact ⟨rfl, rfl, .refl _⟩
  · split at changed
    · rcases Option.bind_eq_some_iff.mp changed with ⟨cell, _, changed⟩
      rcases Option.bind_eq_some_iff.mp changed with ⟨⟨old, cell'⟩, _, made⟩
      cases made
      exact ⟨rfl, rfl, .setCell _ _ _⟩
    · cases changed

end Memory

end PacketFilter
