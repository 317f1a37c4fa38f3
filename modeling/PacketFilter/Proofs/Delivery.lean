import PacketFilter.Proofs.Maps
import PacketFilter.Proofs.BoundedQueue

/-!
# Delivery by ring buffers

A ring with at least two slots is a bounded queue of records: whatever writers
and reader do, it gives the answers that `BoundedQueue` gives.  The slot of a
position within one lap from the head is told apart from every other such slot
by its index, and its sequence number tells a free slot, a record that is held
and one that is complete.

With a single slot the last two do not stay apart: the number of a complete
record is that of a slot which is free for the next position.
-/

namespace PacketFilter

/-! ## Writers and readers of a ring -/

/-- A ring, and the records that its writers hold. -/
structure RingSession where
  ring : Ring
  held : List Reservation := []
  deriving DecidableEq, Repr

namespace RingSession

/-- A ring whose records nobody holds. -/
def create (recordSize capacity : Nat) : RingSession where
  ring := .create recordSize capacity

/-- The reservation that a writer holds under a number. -/
def held? (session : RingSession) (number : Nat) : Option Reservation :=
  session.held.find? fun reservation => reservation.position == number

/-- Claim the next record, and hold what the ring gives out for it. -/
def reserve (session : RingSession) (length : Nat) : RingAnswer × RingSession :=
  match session.ring.reserve length with
  | (some reservation, ring) =>
    (.claimed (some reservation.position), ⟨ring, reservation :: session.held⟩)
  | (none, ring) => (.claimed none, { session with ring })

/-- Write through a reservation that is held. -/
def write (session : RingSession) (number offset : Nat) (data : Bytes) :
    RingAnswer × RingSession :=
  match session.held? number with
  | none => (.notHeld, session)
  | some reservation =>
    match session.ring.write? reservation offset data with
    | none => (.written false, session)
    | some ring => (.written true, { session with ring })

/-- The writer is done with a record, and holds it no longer. -/
def complete (session : RingSession) (number : Nat) (finish : Ring → Nat → Ring) :
    RingAnswer × RingSession :=
  match session.held? number with
  | none => (.notHeld, session)
  | some reservation =>
    (.completed, ⟨finish session.ring reservation.position,
      session.held.filter fun other => other.position != number⟩)

/-- The answer to a call, and the ring and the reservations after it. -/
def handle : RingCall → RingSession → RingAnswer × RingSession
  | .reserve length, session => session.reserve length
  | .write number offset data, session => session.write number offset data
  | .submit number, session => session.complete number .submit
  | .discard number, session | .drop number, session => session.complete number .discard
  | .poll, session => (.taken session.ring.poll.1, { session with ring := session.ring.poll.2 })

end RingSession

/-! ## Slots -/

/-- The record of the slot has these bytes. -/
structure RingSlot.Stores (slot : RingSlot) (bytes : Bytes) : Prop where
  length : slot.length = bytes.size
  content : slot.cell.bytes.slice 0 bytes.size = bytes.toList

/-- The slot holds the record that was claimed for a position. -/
def RingSlot.Holds (slot : RingSlot) (position : Nat) : ClaimedRecord → Prop
  | .held bytes => slot.sequence = position ∧ slot.Stores bytes
  | .submitted bytes =>
    slot.sequence = position + 1 ∧ slot.isDiscarded = false ∧ slot.Stores bytes
  | .discarded => slot.sequence = position + 1 ∧ slot.isDiscarded = true

namespace RingSlot

variable {slot : RingSlot} {bytes : Bytes}

/-- The number of a slot with a record is that of its position, or the next one. -/
theorem Holds.sequence_le
    {position : Nat} {record : ClaimedRecord}
    (holds : slot.Holds position record) : slot.sequence ≤ position + 1 := by
  cases record with
  | held bytes => exact holds.1 ▸ Nat.le_succ position
  | submitted bytes => exact Nat.le_of_eq holds.1
  | discarded => exact Nat.le_of_eq holds.1

theorem Stores.fits (stores : slot.Stores bytes) : bytes.size ≤ slot.cell.size := by
  have length := congrArg List.length stores.content
  rw [Bytes.slice, Array.length_toList, Array.size_extract, Array.length_toList] at length
  rw [Cell.size]
  omega

/-- What is written into the record is written into its cell. -/
theorem Stores.overwrite
    {offset : Nat} {data : List UInt8}
    (stores : slot.Stores bytes) (inside : offset + data.length ≤ bytes.size) :
    Stores { slot with cell := ⟨slot.cell.bytes.overwrite offset data⟩ }
      (bytes.overwrite offset data) where
  length := stores.length.trans (Bytes.overwrite_size bytes offset data).symm
  content := by
    have fits := stores.fits
    rw [Cell.size] at fits
    apply List.ext_getElem?
    intro index
    have same := congrArg (fun content : List UInt8 => content[index]?) stores.content
    rw [Bytes.slice_getElem?, Nat.zero_add, Array.getElem?_toList] at same
    have listed : (bytes.overwrite offset data).toList[index]? =
        (bytes.overwrite offset data)[index]? := Array.getElem?_toList
    rw [listed, Bytes.slice_getElem?, Bytes.overwrite_size, Nat.zero_add,
      Bytes.overwrite_getElem?, Bytes.overwrite_getElem?]
    by_cases written : offset ≤ index ∧ index < offset + data.length
    · rw [if_pos (by omega), if_pos (by omega), if_pos (by omega)]
    · rw [if_neg (show ¬ (offset ≤ index ∧ index < offset + data.length ∧ _) by omega),
        if_neg (show ¬ (offset ≤ index ∧ index < offset + data.length ∧ _) by omega)]
      exact same

/-- The slot with a new record of zeros. -/
def cleared (slot : RingSlot) (length : Nat) : RingSlot :=
  { slot with length, cell := ⟨slot.cell.bytes.overwrite 0 (List.replicate length 0)⟩ }

theorem cleared_stores
    {length : Nat}
    (fits : length ≤ slot.cell.size) :
    (slot.cleared length).Stores (Array.replicate length 0) where
  length := Array.size_replicate.symm
  content := by
    have inside : 0 + (List.replicate length (0 : UInt8)).length ≤ slot.cell.bytes.size := by
      rw [List.length_replicate, Nat.zero_add]
      exact fits
    have written := Bytes.slice_overwrite inside
    rw [List.length_replicate] at written
    rw [Array.size_replicate, Array.toList_replicate]
    exact written

end RingSlot

namespace Ring

variable {ring : Ring}

/-- Two positions within one lap that have the same slot are the same. -/
theorem eq_of_sameSlot
    {capacity first second : Nat}
    (same : first % capacity = second % capacity) (before : first < second + capacity)
    (after : second < first + capacity) :
    first = second := by
  rcases Nat.le_total first second with order | order
  · have zero := Nat.sub_mod_eq_zero_of_mod_eq same.symm
    rw [Nat.mod_eq_of_lt (by omega)] at zero
    omega
  · have zero := Nat.sub_mod_eq_zero_of_mod_eq same
    rw [Nat.mod_eq_of_lt (by omega)] at zero
    omega

theorem capacity_modifySlot (ring : Ring) (position : Nat) (change : RingSlot → RingSlot) :
    (ring.modifySlot position change).capacity = ring.capacity :=
  Array.size_modify ..

/-- Changing the slot of a position leaves slots of other positions alone. -/
theorem slot_modifySlot
    (nonempty : 0 < ring.slots.size) (position other : Nat) (change : RingSlot → RingSlot) :
    (ring.modifySlot position change).slot other =
      if position % ring.capacity = other % ring.capacity then change (ring.slot other)
      else ring.slot other := by
  have inside : other % ring.slots.size < ring.slots.size := Nat.mod_lt other nonempty
  rw [slot, capacity_modifySlot, slot, modifySlot, capacity, Array.getElem?_modify,
    Array.getElem?_eq_getElem inside]
  split <;> rfl

/-- Within one lap only the slot at the position is changed. -/
theorem slot_modifySlot_of_near
    {position other : Nat} {change : RingSlot → RingSlot}
    (nonempty : 0 < ring.slots.size) (differ : position ≠ other)
    (before : position < other + ring.capacity) (after : other < position + ring.capacity) :
    (ring.modifySlot position change).slot other = ring.slot other := by
  rw [slot_modifySlot nonempty, if_neg]
  exact fun same => differ (eq_of_sameSlot same before after)

theorem slot_modifySlot_self
    (nonempty : 0 < ring.slots.size) (position : Nat) (change : RingSlot → RingSlot) :
    (ring.modifySlot position change).slot position = change (ring.slot position) := by
  rw [slot_modifySlot nonempty, if_pos rfl]

/-! ## Rings that serve as queues -/

/-- The ring is where the queue is, and its slots hold what waits there. -/
structure Serves (ring : Ring) (queue : BoundedQueue) : Prop where
  slots : ring.WellFormed
  waiting : queue.WellFormed
  recordSize : ring.recordSize = queue.recordSize
  capacity : ring.capacity = queue.capacity
  tail : ring.tail = queue.records.length
  head : ring.head = queue.left
  refused : ring.refused = queue.refused
  claimed : ∀ (position : Nat) (record : ClaimedRecord), queue.left ≤ position →
    queue.records[position]? = some record → (ring.slot position).Holds position record
  free : ∀ position : Nat, queue.records.length ≤ position →
    position < queue.left + queue.capacity → (ring.slot position).sequence = position

/-- A new ring serves an empty queue. -/
theorem create_serves
    {capacity : Nat}
    (positive : 0 < capacity) (recordSize : Nat) :
    (create recordSize capacity).Serves { recordSize, capacity } where
  slots := create_wellFormed positive
  waiting := BoundedQueue.create_wellFormed recordSize capacity
  recordSize := rfl
  capacity := by simp [Ring.capacity, create]
  tail := rfl
  head := rfl
  refused := rfl
  claimed _ _ _ there := by cases there
  free position _ inside := by
    have short : position < capacity := by simpa using inside
    simp [slot, Ring.capacity, create, Nat.mod_eq_of_lt short, short]

namespace Serves

variable {queue : BoundedQueue}

/-- The slot of a record that waits holds it. -/
theorem holds
    {number : Nat} {bytes : Bytes}
    (serves : ring.Serves queue) (held : queue.held? number = some bytes) :
    (ring.slot number).Holds number (.held bytes) := by
  rcases Option.bind_eq_some_iff.mp held with ⟨record, there, holds⟩
  have stored := serves.claimed number record (serves.waiting.left_le held) there
  cases record with
  | held bytes' =>
      cases holds
      exact stored
  | submitted bytes' => cases holds
  | discarded => cases holds

theorem number_lt
    {number : Nat} {bytes : Bytes}
    (held : queue.held? number = some bytes) : number < queue.records.length := by
  rcases Option.bind_eq_some_iff.mp held with ⟨record, there, _⟩
  exact (List.getElem?_eq_some_iff.mp there).1

/-- No more records wait than the ring has slots. -/
theorem length_le (serves : ring.Serves queue) :
    queue.records.length ≤ queue.left + ring.capacity := by
  have bounded := serves.waiting.bounded
  rw [BoundedQueue.pending] at bounded
  rw [serves.capacity]
  omega

/-- A record that is held, and its slot with it, may become another. -/
theorem setRecord
    {number : Nat} {bytes : Bytes} {record : ClaimedRecord} {change : RingSlot → RingSlot}
    (serves : ring.Serves queue) (held : queue.held? number = some bytes)
    (sized : ∀ slot ∈ ring.slots, (change slot).cell.size = ring.recordSize)
    (holds : (change (ring.slot number)).Holds number record) :
    (ring.modifySlot number change).Serves (queue.setRecord number record) := by
  have nonempty := serves.slots.nonempty
  have after := serves.waiting.left_le held
  have before := number_lt held
  have lap := serves.length_le
  have kept := serves.slots.modifySlot number sized
  refine
    { slots := kept.wellFormed
      waiting := serves.waiting.setRecord held record
      recordSize := serves.recordSize
      capacity := (Array.size_modify ..).trans serves.capacity
      tail := serves.tail.trans List.length_set.symm
      head := serves.head
      refused := serves.refused
      claimed := fun position other waits there => ?_
      free := fun position beyond within => ?_ }
  · rw [BoundedQueue.setRecord, List.getElem?_set] at there
    split at there
    case isTrue same =>
      subst same
      cases there
      rw [slot_modifySlot_self nonempty]
      exact holds
    case isFalse differ =>
      have short : position < queue.records.length := (List.getElem?_eq_some_iff.mp there).1
      have waits' : queue.left ≤ position := waits
      rw [slot_modifySlot_of_near nonempty differ (by omega) (by omega)]
      exact serves.claimed position other waits there
  · rw [BoundedQueue.setRecord, List.length_set] at beyond
    have within' : position < queue.left + queue.capacity := within
    have capacity := serves.capacity
    rw [slot_modifySlot_of_near nonempty (by omega) (by omega) (by omega)]
    exact serves.free position beyond within'

/-! ## Claims -/

/-- Where there is room, the slot at the tail is free. -/
theorem tail_free (serves : ring.Serves queue) (room : queue.pending < queue.capacity) :
    (ring.slot ring.tail).sequence = ring.tail := by
  have ordered := serves.waiting.ordered
  rw [BoundedQueue.pending] at room
  rw [serves.tail]
  exact serves.free queue.records.length (Nat.le_refl _) (by omega)

/-- A record of zeros claimed in the slot at the tail. -/
theorem claim
    {length : Nat} (serves : ring.Serves queue) (room : queue.pending < queue.capacity)
    (fits : length ≤ queue.recordSize) :
    Serves { ring.modifySlot ring.tail (·.cleared length) with tail := ring.tail + 1 }
      { queue with records := queue.records ++ [.held (Array.replicate length 0)] } := by
  have nonempty := serves.slots.nonempty
  have ordered := serves.waiting.ordered
  have capacity := serves.capacity
  have freed := serves.tail_free room
  have lap := serves.waiting.claim room (.held (Array.replicate length 0))
  rw [BoundedQueue.pending] at room
  have fits' : length ≤ (ring.slot queue.records.length).cell.size := by
    rw [serves.slots.cells _ (serves.slots.slot_mem queue.records.length), serves.recordSize]
    exact fits
  have kept : ring.Kept (ring.modifySlot ring.tail (·.cleared length)) :=
    serves.slots.modifySlot ring.tail fun slot listed =>
      (Bytes.overwrite_size ..).trans (serves.slots.cells slot listed)
  refine
    { slots := ⟨kept.wellFormed.nonempty, kept.wellFormed.cells⟩
      waiting := lap
      recordSize := serves.recordSize
      capacity := (Array.size_modify ..).trans capacity
      tail := ?_
      head := serves.head
      refused := serves.refused
      claimed := fun position record waits there => ?_
      free := fun position beyond within => ?_ }
  · rw [List.length_append, serves.tail]
    rfl
  · have waits' : queue.left ≤ position := waits
    rw [serves.tail]
    show ((ring.modifySlot queue.records.length _).slot position).Holds position record
    by_cases newest : position = queue.records.length
    · subst newest
      rw [List.getElem?_concat_length] at there
      cases there
      rw [slot_modifySlot_self nonempty]
      exact ⟨(serves.tail ▸ freed), RingSlot.cleared_stores fits'⟩
    · have short := (List.getElem?_eq_some_iff.mp there).1
      rw [List.length_append, List.length_singleton] at short
      rw [List.getElem?_append_left (by omega)] at there
      rw [slot_modifySlot_of_near nonempty (Ne.symm newest) (by omega) (by omega)]
      exact serves.claimed position record waits there
  · have within' : position < queue.left + queue.capacity := within
    rw [List.length_append, List.length_singleton] at beyond
    rw [serves.tail]
    show ((ring.modifySlot queue.records.length _).slot position).sequence = position
    rw [slot_modifySlot_of_near nonempty (by omega) (by omega) (by omega)]
    exact serves.free position (by omega) within'

/-- Where there is room the next slot is free, and is given out with zeros. -/
theorem reserve_of_room
    {length : Nat}
    (serves : ring.Serves queue) (fits : ¬ (length = 0 ∨ queue.recordSize < length))
    (room : queue.pending < queue.capacity) :
    (ring.reserve length).1 = some ⟨queue.records.length, length⟩ ∧
      (ring.reserve length).2.Serves
        { queue with records := queue.records ++ [.held (Array.replicate length 0)] } := by
  have small : length ≤ queue.recordSize := Nat.le_of_not_lt fun long => fits (.inr long)
  have claims := serves.claim room small
  rw [← serves.recordSize] at fits
  have claimed :
      ring.reserve length =
        (some ⟨ring.tail, length⟩,
          { ring.modifySlot ring.tail (·.cleared length) with tail := ring.tail + 1 }) := by
    simp only [Ring.reserve, if_neg fits, if_pos (serves.tail_free room)]
    rfl
  rw [claimed]
  exact ⟨by rw [serves.tail], claims⟩

/-- Where there is none, the slot at the tail is that of the record in front, and tells by its
number that it is not free; there have to be two slots for that. -/
theorem reserve_of_full
    {length : Nat}
    (serves : ring.Serves queue) (fits : ¬ (length = 0 ∨ queue.recordSize < length))
    (full : ¬ queue.pending < queue.capacity) (roomy : 2 ≤ queue.capacity) :
    (ring.reserve length).1 = none ∧
      (ring.reserve length).2.Serves { queue with refused := queue.refused + 1 } := by
  have capacity := serves.capacity
  have ordered := serves.waiting.ordered
  have bounded := serves.waiting.bounded
  rw [← serves.recordSize] at fits
  rw [BoundedQueue.pending] at full bounded
  have lap : queue.records.length = queue.left + ring.capacity := by omega
  have front : ring.slot ring.tail = ring.slot queue.left := by
    rw [serves.tail, lap, slot, slot, Nat.add_mod_right]
  have inside : queue.left < queue.records.length := by omega
  have holds := serves.claimed queue.left queue.records[queue.left] (Nat.le_refl _)
    (List.getElem?_eq_getElem inside)
  have taken : (ring.slot ring.tail).sequence < ring.tail := by
    rw [front, serves.tail]
    have sequence := holds.sequence_le
    omega
  have refused : ring.reserve length = (none, { ring with refused := ring.refused + 1 }) := by
    simp only [Ring.reserve, if_neg fits, if_neg (Nat.ne_of_lt taken), if_pos taken]
  rw [refused]
  exact ⟨rfl,
    { slots := ⟨serves.slots.nonempty, serves.slots.cells⟩
      waiting := ⟨serves.waiting.ordered, serves.waiting.bounded, serves.waiting.settled⟩
      recordSize := serves.recordSize
      capacity := serves.capacity
      tail := serves.tail
      head := serves.head
      refused := congrArg (· + 1) serves.refused
      claimed := serves.claimed
      free := serves.free }⟩

/-! ## Polls -/

/-- When the record in front is complete, its slot can be freed for the next lap. -/
theorem release
    {record : ClaimedRecord}
    (serves : ring.Serves queue) (front : queue.records[queue.left]? = some record)
    (settled : record.held? = none) :
    ring.release.Serves queue.advance := by
  have nonempty := serves.slots.nonempty
  have capacity := serves.capacity
  have inside : queue.left < queue.records.length := (List.getElem?_eq_some_iff.mp front).1
  have lap := serves.length_le
  have kept := serves.slots.release
  refine
    { slots := kept.wellFormed
      waiting := serves.waiting.advance front settled
      recordSize := serves.recordSize
      capacity := (Array.size_modify ..).trans capacity
      tail := serves.tail
      head := congrArg (· + 1) serves.head
      refused := serves.refused
      claimed := fun position other waits there => ?_
      free := fun position beyond within => ?_ }
  · have waits' : queue.left + 1 ≤ position := waits
    have short : position < queue.records.length := (List.getElem?_eq_some_iff.mp there).1
    show ((ring.modifySlot ring.head _).slot position).Holds position other
    rw [serves.head, slot_modifySlot_of_near nonempty (by omega) (by omega) (by omega)]
    exact serves.claimed position other (by omega) there
  · have within' : position < queue.left + 1 + queue.capacity := within
    have beyond' : queue.records.length ≤ position := beyond
    show ((ring.modifySlot ring.head _).slot position).sequence = position
    rw [serves.head]
    by_cases last : position = queue.left + ring.capacity
    · rw [slot_modifySlot nonempty, if_pos (by rw [last, Nat.add_mod_right])]
      exact last.symm
    · rw [slot_modifySlot_of_near nonempty (by omega) (by omega) (by omega)]
      exact serves.free position beyond' (by omega)

/-- Nothing can be taken while the record in front is held, or when there is none. -/
theorem sequence_of_waiting
    (serves : ring.Serves queue) (positive : 0 < queue.capacity)
    (waiting : ∀ record, queue.records[queue.left]? = some record → record.held? ≠ none) :
    (ring.slot ring.head).sequence ≠ ring.head + 1 := by
  rw [serves.head]
  rcases front : queue.records[queue.left]? with _ | record
  · have sequence := serves.free queue.left (List.getElem?_eq_none_iff.mp front) (by omega)
    omega
  · have held := waiting record front
    have holds := serves.claimed queue.left record (Nat.le_refl _) front
    cases record with
    | held bytes =>
        have sequence := holds.1
        omega
    | submitted bytes => exact absurd rfl held
    | discarded => exact absurd rfl held

/-- A ring polls as its queue does, if it may skip all that waits. -/
theorem pollWithin (skips : Nat) :
    ∀ {ring : Ring} {queue : BoundedQueue}, ring.Serves queue → 0 < queue.capacity →
      queue.pending ≤ skips →
        (ring.pollWithin skips).1 = queue.poll.1 ∧
          (ring.pollWithin skips).2.Serves queue.poll.2 := by
  induction skips with
  | zero =>
      intro ring queue serves positive few
      rw [BoundedQueue.pending] at few
      rw [BoundedQueue.poll_of_empty (List.getElem?_eq_none_iff.mpr (by omega))]
      exact ⟨rfl, serves⟩
  | succ skips continues =>
      intro ring queue serves positive few
      rw [Ring.pollWithin]
      rcases front : queue.records[queue.left]? with _ | (bytes | bytes | _)
      · have waits := serves.sequence_of_waiting positive fun record there =>
          (by rw [front] at there; cases there)
        rw [BoundedQueue.poll_of_empty front]
        simp only [if_pos waits]
        exact ⟨trivial, serves⟩
      · have waits := serves.sequence_of_waiting positive fun record there =>
          (by rw [front] at there; cases there; exact Option.some_ne_none bytes)
        rw [BoundedQueue.poll_of_held front]
        simp only [if_pos waits]
        exact ⟨trivial, serves⟩
      · have holds := serves.claimed queue.left _ (Nat.le_refl _) front
        rw [← serves.head] at holds
        rcases holds with ⟨sequence, submitted, length, content⟩
        rw [BoundedQueue.poll_of_submitted front]
        simp only [sequence, submitted, length, content, ne_eq, not_true_eq_false, if_false,
          Bool.false_eq_true]
        exact ⟨trivial, serves.release front rfl⟩
      · have holds := serves.claimed queue.left _ (Nat.le_refl _) front
        rw [← serves.head] at holds
        rcases holds with ⟨sequence, discarded⟩
        have inside : queue.left < queue.records.length := (List.getElem?_eq_some_iff.mp front).1
        rw [BoundedQueue.poll_of_discarded front]
        simp only [sequence, discarded, ne_eq, not_true_eq_false, if_false, if_true]
        refine continues (serves.release front rfl) positive ?_
        rw [BoundedQueue.pending] at few ⊢
        show queue.records.length - (queue.left + 1) ≤ skips
        omega

end Serves

end Ring

/-! ## Sessions -/

/-- The ring serves the queue, and writers hold the records that the queue takes to be held. -/
structure RingSession.Follows (session : RingSession) (queue : BoundedQueue) : Prop where
  serves : session.ring.Serves queue
  holds : ∀ number : Nat,
    session.held? number = (queue.held? number).map fun bytes => ⟨number, bytes.size⟩

namespace BoundedQueue

/-- The record that was claimed is held, and the others are as before. -/
theorem held?_claim (queue : BoundedQueue) (bytes : Bytes) (number : Nat) :
    held? { queue with records := queue.records ++ [.held bytes] } number =
      if queue.records.length = number then some bytes else queue.held? number := by
  rw [held?, held?]
  rcases Nat.lt_trichotomy number queue.records.length with before | rfl | beyond
  · rw [List.getElem?_append_left before, if_neg (Nat.ne_of_gt before)]
  · rw [List.getElem?_concat_length, if_pos rfl]
    rfl
  · rw [if_neg (Nat.ne_of_lt beyond), List.getElem?_eq_none (Nat.le_of_lt beyond),
      List.getElem?_eq_none (by rw [List.length_append]; exact beyond)]

theorem held?_setRecord
    {queue : BoundedQueue} {number : Nat} {bytes : Bytes}
    (held : queue.held? number = some bytes) (record : ClaimedRecord) (other : Nat) :
    (queue.setRecord number record).held? other =
      if number = other then record.held? else queue.held? other := by
  rcases Option.bind_eq_some_iff.mp held with ⟨_, there, _⟩
  have inside := (List.getElem?_eq_some_iff.mp there).1
  rw [held?, held?, setRecord]
  by_cases same : number = other
  · subst same
    rw [if_pos rfl, List.getElem?_set_self inside]
    rfl
  · rw [if_neg same, List.getElem?_set_ne same]

end BoundedQueue

namespace RingSession

theorem create_follows
    {capacity : Nat}
    (positive : 0 < capacity) (recordSize : Nat) :
    (create recordSize capacity).Follows { recordSize, capacity } where
  serves := Ring.create_serves positive recordSize
  holds _ := rfl

namespace Follows

variable {session : RingSession} {queue : BoundedQueue}

/-- A ring of two slots or more gives out a record where the queue does, with the same number. -/
theorem reserve
    (follows : session.Follows queue) (roomy : 2 ≤ queue.capacity) (length : Nat) :
    (session.reserve length).1 = (queue.reserve length).1 ∧
      (session.reserve length).2.Follows (queue.reserve length).2 := by
  rw [RingSession.reserve, BoundedQueue.reserve]
  split_ifs with unfit room
  · rw [← follows.serves.recordSize] at unfit
    have refused : session.ring.reserve length = (none, session.ring) := by
      simp only [Ring.reserve, if_pos unfit]
    rw [refused]
    exact ⟨rfl, follows⟩
  · rcases follows.serves.reserve_of_room unfit room with ⟨claimed, serves⟩
    generalize session.ring.reserve length = reserved at claimed serves
    rcases reserved with ⟨reservation?, ring⟩
    subst claimed
    refine ⟨rfl, serves, fun number => ?_⟩
    have others := follows.holds number
    rw [RingSession.held?] at others
    refine Eq.trans ?_ (congrArg _ (queue.held?_claim (Array.replicate length 0) number).symm)
    rw [RingSession.held?, List.find?_cons]
    by_cases newest : queue.records.length = number
    · subst newest
      rw [beq_self_eq_true, if_pos rfl, Option.map_some, Array.size_replicate]
    · rw [beq_eq_false_iff_ne.mpr newest, if_neg newest]
      exact others
  · rcases follows.serves.reserve_of_full unfit room roomy with ⟨refused, serves⟩
    generalize session.ring.reserve length = reserved at refused serves
    rcases reserved with ⟨reservation?, ring⟩
    subst refused
    exact ⟨rfl, serves, follows.holds⟩

/-- Bytes are written through a reservation where the queue takes them. -/
theorem write
    (follows : session.Follows queue) (number offset : Nat) (data : Bytes) :
    (session.write number offset data).1 = (queue.write number offset data).1 ∧
      (session.write number offset data).2.Follows (queue.write number offset data).2 := by
  rw [RingSession.write, BoundedQueue.write, follows.holds]
  rcases held : queue.held? number with _ | bytes
  · exact ⟨rfl, follows⟩
  · have holds := follows.serves.holds held
    have fits := holds.2.fits
    have sized := follows.serves.slots.cells _ (follows.serves.slots.slot_mem number)
    rw [Cell.size] at fits
    by_cases long : bytes.size < offset + data.size
    · have refused : session.ring.write? ⟨number, bytes.size⟩ offset data = none := by
        rw [Ring.write?, if_pos long]
      simp only [Option.map_some, refused, if_pos long]
      exact ⟨trivial, follows⟩
    · have inside : offset + data.toList.length ≤ bytes.size := by
        rw [Array.length_toList]
        omega
      have sized : offset + data.toList.length ≤ (session.ring.cell number).bytes.size :=
        Nat.le_trans inside fits
      have written : session.ring.write? ⟨number, bytes.size⟩ offset data =
          some (session.ring.setCell number
            ⟨(session.ring.cell number).bytes.overwrite offset data.toList⟩) := by
        simp only [Ring.write?, if_neg long, Cell.write?, Bytes.write?,
          if_pos (Bytes.covers_iff.mpr sized), Option.map_some]
      simp only [Option.map_some, written, if_neg long]
      refine ⟨trivial, follows.serves.setRecord held ?_ ⟨holds.1, holds.2.overwrite inside⟩,
        fun other => ?_⟩
      · exact fun _ _ => (Bytes.overwrite_size ..).trans (follows.serves.slots.cell_size number)
      · rw [BoundedQueue.held?_setRecord held]
        refine (follows.holds other).trans ?_
        split
        case isTrue same =>
          subst same
          rw [held]
          exact congrArg (fun size => some (Reservation.mk number size))
            (Bytes.overwrite_size ..).symm
        case isFalse => rfl

/-- A writer submits or discards the record that it holds. -/
theorem complete
    (follows : session.Follows queue) (number : Nat) (finish : Ring → Nat → Ring)
    (become : Bytes → ClaimedRecord)
    (finishes : ∀ bytes, queue.held? number = some bytes →
      (finish session.ring number).Serves (queue.setRecord number (become bytes)))
    (released : ∀ bytes, (become bytes).held? = none) :
    (session.complete number finish).1 = (queue.complete number become).1 ∧
      (session.complete number finish).2.Follows (queue.complete number become).2 := by
  rw [RingSession.complete, BoundedQueue.complete, follows.holds]
  rcases held : queue.held? number with _ | bytes
  · exact ⟨rfl, follows⟩
  · refine ⟨rfl, finishes bytes held, fun other => ?_⟩
    have others := follows.holds other
    rw [RingSession.held?] at others
    rw [BoundedQueue.held?_setRecord held, released]
    show List.find? _ (List.filter _ session.held) = _
    rw [List.find?_filter]
    by_cases same : number = other
    · subst same
      rw [if_pos rfl, Option.map_none, List.find?_eq_none]
      intro reservation _ found
      simp at found
    · rw [if_neg same, ← others]
      congr 1
      funext reservation
      by_cases found : reservation.position = other
      · simp [found, Ne.symm same]
      · simp [found]

/-- One call: the session gives the answer of the queue and goes on following it. -/
theorem handle
    (follows : session.Follows queue) (roomy : 2 ≤ queue.capacity) (call : RingCall) :
    (RingSession.handle call session).1 = (BoundedQueue.handle call queue).1 ∧
      (RingSession.handle call session).2.Follows (BoundedQueue.handle call queue).2 := by
  have discards (number : Nat) := follows.complete number .discard (fun _ => .discarded)
    (fun bytes held => follows.serves.setRecord held follows.serves.slots.cells
      ⟨rfl, rfl⟩) fun _ => rfl
  cases call with
  | reserve length => exact follows.reserve roomy length
  | write number offset data => exact follows.write number offset data
  | submit number =>
      refine follows.complete number .submit .submitted (fun bytes held => ?_) fun _ => rfl
      have holds := follows.serves.holds held
      exact follows.serves.setRecord held follows.serves.slots.cells
        ⟨rfl, rfl, holds.2.length, holds.2.content⟩
  | discard number => exact discards number
  | drop number => exact discards number
  | poll =>
      have few := follows.serves.waiting.bounded
      rw [← follows.serves.capacity] at few
      rcases follows.serves.pollWithin session.ring.capacity (by omega) few with
        ⟨same, serves⟩
      exact ⟨congrArg RingAnswer.taken same, serves, follows.holds⟩

/-- The ring answers as the queue does, call by call. -/
theorem run
    (follows : session.Follows queue) (roomy : 2 ≤ queue.capacity) (calls : List RingCall) :
    (answerAll RingSession.handle calls session).1 =
        (answerAll BoundedQueue.handle calls queue).1 ∧
      (answerAll RingSession.handle calls session).2.Follows
        (answerAll BoundedQueue.handle calls queue).2 := by
  have alike (call : RingCall) (session : RingSession) (queue : BoundedQueue)
      (held : session.Follows queue ∧ 2 ≤ queue.capacity) :
      (RingSession.handle call session).1 = (BoundedQueue.handle call queue).1 ∧
        (RingSession.handle call session).2.Follows (BoundedQueue.handle call queue).2 ∧
          2 ≤ (BoundedQueue.handle call queue).2.capacity := by
    rcases held.1.handle held.2 call with ⟨same, follows'⟩
    exact ⟨same, follows', queue.handle_capacity call ▸ held.2⟩
  rcases answerAll_simulates alike calls ⟨follows, roomy⟩ with ⟨same, held⟩
  exact ⟨same, held.1⟩

end Follows

end RingSession

/-- The answers of an empty ring to a series of calls, and what becomes of the ring. -/
def RingSession.serve (recordSize capacity : Nat) (calls : List RingCall) :
    List RingAnswer × RingSession :=
  answerAll handle calls (create recordSize capacity)

/-- The answers of an empty queue to a series of calls, and what becomes of the queue. -/
def BoundedQueue.serve (recordSize capacity : Nat) (calls : List RingCall) :
    List RingAnswer × BoundedQueue :=
  answerAll handle calls { recordSize, capacity }

/-- A ring with two slots or more is a bounded queue.  Whatever its writers and its reader call, it
gives the answers of the queue, and has as many records waiting and as many claims refused; the
reader gets the submitted records that have left the queue, each once and in the order of their
claims; and when no record is held, as many polls as there are slots bring it all of them. -/
theorem ring_delivers
    (recordSize : Nat) {capacity : Nat} (roomy : 2 ≤ capacity) (calls : List RingCall) :
    let ring := RingSession.serve recordSize capacity calls
    let queue := BoundedQueue.serve recordSize capacity calls
    ring.1 = queue.1 ∧ ring.2.ring.pending = queue.2.pending ∧
      ring.2.ring.refused = queue.2.refused ∧ RingAnswer.delivered ring.1 = queue.2.delivered ∧
      ((∀ record ∈ queue.2.records, record.held? = none) →
        RingAnswer.delivered
            (RingSession.serve recordSize capacity (calls ++ List.replicate capacity .poll)).1 =
          queue.2.records.filterMap ClaimedRecord.submitted?) := by
  have begins := RingSession.create_follows (show 0 < capacity by omega) recordSize
  have empty := BoundedQueue.create_wellFormed recordSize capacity
  have follows (calls : List RingCall) := begins.run roomy calls
  have delivered (calls : List RingCall) :
      RingAnswer.delivered (RingSession.serve recordSize capacity calls).1 =
        (BoundedQueue.serve recordSize capacity calls).2.delivered :=
    (congrArg RingAnswer.delivered (follows calls).1).trans
      (BoundedQueue.run_delivered calls empty).symm
  have serves := (follows calls).2.serves
  have waiting := empty.run calls
  refine ⟨(follows calls).1, ?_, serves.refused, delivered calls, fun settled => ?_⟩
  · rw [Ring.pending, BoundedQueue.pending]
    exact congrArg₂ (· - ·) serves.tail serves.head
  · rw [delivered, BoundedQueue.serve, answerAll_append]
    refine BoundedQueue.run_polls capacity waiting ?_ settled
    have bounded := waiting.bounded
    rwa [BoundedQueue.run_capacity] at bounded

theorem pair_delivers :
    let ring := RingSession.serve 4 2
      [.reserve 2, .reserve 1, .write 1 0 #[7], .submit 1, .poll, .reserve 1, .discard 0, .poll]
    ring.1 = [.claimed (some 0), .claimed (some 1), .written true, .completed, .taken none,
        .claimed none, .completed, .taken (some #[7])] ∧
      ring.2.ring.pending = 0 ∧ ring.2.ring.refused = 1 := by
  have delivers := ring_delivers 4 (show 2 ≤ 2 by decide)
    [.reserve 2, .reserve 1, .write 1 0 #[7], .submit 1, .poll, .reserve 1, .discard 0, .poll]
  exact ⟨delivers.1.trans (by decide +kernel), delivers.2.1.trans (by decide +kernel),
    delivers.2.2.1.trans (by decide +kernel)⟩

/-- With a single slot the second claim is not refused, although a submitted record waits there; the
reader gets the second record in place of the first, and while its writer still holds it. -/
theorem single_does_not_deliver :
    let calls : List RingCall := [.reserve 1, .write 0 0 #[7], .submit 0, .reserve 1, .poll]
    (RingSession.serve 4 1 calls).1 = [.claimed (some 0), .written true, .completed,
        .claimed (some 1), .taken (some #[0])] ∧
      (BoundedQueue.serve 4 1 calls).1 = [.claimed (some 0), .written true, .completed,
        .claimed none, .taken (some #[7])] := by
  decide +kernel

end PacketFilter
