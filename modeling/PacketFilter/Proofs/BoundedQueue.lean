import PacketFilter.Map.Ring
import PacketFilter.Proofs.Series

/-!
# Queues of records

What a ring buffer is for: a queue in which every record that was ever claimed
has its place, in the order of the claims.  The records in front have left the
queue; of the others only so many may be waiting at a time.

A ring and a queue are asked the same things and answer them; here is what
they are asked, and what the queue answers.
-/

namespace PacketFilter

/-! ## Calls -/

/-- What writers and the reader ask for.  A record goes by its number in the order of claims. -/
inductive RingCall where
  | reserve (length : Nat)
  | write (number offset : Nat) (data : Bytes)
  | submit (number : Nat)
  | discard (number : Nat)
  /-- The writer lets go of a record that it has neither submitted nor discarded. -/
  | drop (number : Nat)
  | poll
  deriving DecidableEq, Repr

/-- What a ring answers to a call. -/
inductive RingAnswer where
  /-- The number of the record that was claimed, if one was. -/
  | claimed (number? : Option Nat)
  | written (isDone : Bool)
  | completed
  /-- No writer holds a record of that number. -/
  | notHeld
  | taken (record? : Option Bytes)
  deriving DecidableEq, Repr

/-- The record that the reader was given. -/
def RingAnswer.record? : RingAnswer → Option Bytes
  | taken record? => record?
  | _ => none

/-- The records that the reader was given, in the order in which it got them. -/
def RingAnswer.delivered (answers : List RingAnswer) : List Bytes :=
  answers.filterMap record?

/-! ## Queues -/

/-- What has become of a record that was claimed. -/
inductive ClaimedRecord where
  /-- Its writer holds it, and it has these bytes by now. -/
  | held (bytes : Bytes)
  | submitted (bytes : Bytes)
  | discarded
  deriving DecidableEq, Repr

namespace ClaimedRecord

/-- What has been written so far, while a writer holds the record. -/
def held? : ClaimedRecord → Option Bytes
  | held bytes => some bytes
  | _ => none

/-- What the consumer will find, once the record has been submitted. -/
def submitted? : ClaimedRecord → Option Bytes
  | submitted bytes => some bytes
  | _ => none

end ClaimedRecord

/-- Every record that was ever claimed, in order. -/
structure BoundedQueue where
  recordSize : Nat
  /-- How many records may wait at a time. -/
  capacity : Nat
  records : List ClaimedRecord := []
  /-- How many records have left the queue. -/
  left : Nat := 0
  /-- How many claims found no room. -/
  refused : Nat := 0
  deriving DecidableEq, Repr

namespace BoundedQueue

/-- Records that have not left the queue. -/
def pending (queue : BoundedQueue) : Nat :=
  queue.records.length - queue.left

/-- The bytes of a record whose writer still holds it. -/
def held? (queue : BoundedQueue) (number : Nat) : Option Bytes :=
  queue.records[number]?.bind ClaimedRecord.held?

/-- Replace the record of a number; there is nothing to replace where none was claimed. -/
def setRecord (queue : BoundedQueue) (number : Nat) (record : ClaimedRecord) : BoundedQueue :=
  { queue with records := queue.records.set number record }

/-- The record in front leaves the queue. -/
def advance (queue : BoundedQueue) : BoundedQueue :=
  { queue with left := queue.left + 1 }

/-- Claim a record of zeros at the end of the queue. -/
def reserve (queue : BoundedQueue) (length : Nat) : RingAnswer × BoundedQueue :=
  if length = 0 ∨ queue.recordSize < length then
    (.claimed none, queue)
  else if queue.pending < queue.capacity then
    let record := ClaimedRecord.held (Array.replicate length 0)
    (.claimed (some queue.records.length), { queue with records := queue.records ++ [record] })
  else
    (.claimed none, { queue with refused := queue.refused + 1 })

/-- Put bytes into a record that is held; they have to lie inside it. -/
def write (queue : BoundedQueue) (number offset : Nat) (data : Bytes) : RingAnswer × BoundedQueue :=
  match queue.held? number with
  | none => (.notHeld, queue)
  | some bytes =>
    if bytes.size < offset + data.size then
      (.written false, queue)
    else
      (.written true, queue.setRecord number (.held (bytes.overwrite offset data.toList)))

/-- The writer is done with a record, which becomes something else. -/
def complete (queue : BoundedQueue) (number : Nat) (become : Bytes → ClaimedRecord) :
    RingAnswer × BoundedQueue :=
  match queue.held? number with
  | none => (.notHeld, queue)
  | some bytes => (.completed, queue.setRecord number (become bytes))

/-- Of the records that wait, the first that was submitted, as far as every record before it was
discarded; and how many leave the queue. -/
def takeFirst : List ClaimedRecord → Option Bytes × Nat
  | [] => (none, 0)
  | .held _ :: _ => (none, 0)
  | .submitted bytes :: _ => (some bytes, 1)
  | .discarded :: rest => ((takeFirst rest).1, (takeFirst rest).2 + 1)

/-- Hand the first submitted record to the consumer, and step over those discarded before it. -/
def poll (queue : BoundedQueue) : Option Bytes × BoundedQueue :=
  let first := takeFirst (queue.records.drop queue.left)
  (first.1, { queue with left := queue.left + first.2 })

/-- The answer to a call, and the queue after it. -/
def handle : RingCall → BoundedQueue → RingAnswer × BoundedQueue
  | .reserve length, queue => queue.reserve length
  | .write number offset data, queue => queue.write number offset data
  | .submit number, queue => queue.complete number .submitted
  | .discard number, queue | .drop number, queue => queue.complete number fun _ => .discarded
  | .poll, queue => (.taken queue.poll.1, queue.poll.2)

/-- The submitted records that have left the queue. -/
def delivered (queue : BoundedQueue) : List Bytes :=
  (queue.records.take queue.left).filterMap ClaimedRecord.submitted?

/-! ## Polls -/

section

variable {queue : BoundedQueue}

/-- A record in front that was discarded is stepped over. -/
theorem poll_of_discarded (front : queue.records[queue.left]? = some .discarded) :
    queue.poll = queue.advance.poll := by
  rcases List.getElem?_eq_some_iff.mp front with ⟨inside, there⟩
  rw [poll, poll, advance, List.drop_eq_getElem_cons inside, there, takeFirst]
  simp only [Nat.add_assoc, Nat.add_comm 1]

/-- A record in front that was submitted is handed out. -/
theorem poll_of_submitted
    {bytes : Bytes}
    (front : queue.records[queue.left]? = some (.submitted bytes)) :
    queue.poll = (some bytes, queue.advance) := by
  rcases List.getElem?_eq_some_iff.mp front with ⟨inside, there⟩
  rw [poll, List.drop_eq_getElem_cons inside, there, takeFirst]
  rfl

/-- Nothing is handed out while a writer holds the record in front. -/
theorem poll_of_held
    {bytes : Bytes}
    (front : queue.records[queue.left]? = some (.held bytes)) :
    queue.poll = (none, queue) := by
  rcases List.getElem?_eq_some_iff.mp front with ⟨inside, there⟩
  rw [poll, List.drop_eq_getElem_cons inside, there, takeFirst]
  rfl

theorem poll_of_empty (front : queue.records[queue.left]? = none) : queue.poll = (none, queue) := by
  rw [poll, List.drop_eq_nil_of_le (List.getElem?_eq_none_iff.mp front), takeFirst]
  rfl

end

/-! ## What has left the queue -/

theorem takeFirst_le (waiting : List ClaimedRecord) : (takeFirst waiting).2 ≤ waiting.length := by
  induction waiting with
  | nil => exact Nat.le_refl 0
  | cons record rest shorter =>
      cases record with
      | held bytes => exact Nat.zero_le _
      | submitted bytes => exact Nat.succ_le_succ (Nat.zero_le _)
      | discarded => exact Nat.succ_le_succ shorter

/-- Of the records that leave the queue at a poll, the one that is returned is the only one that
was submitted. -/
theorem takeFirst_submitted (waiting : List ClaimedRecord) :
    (waiting.take (takeFirst waiting).2).filterMap ClaimedRecord.submitted? =
      (takeFirst waiting).1.toList := by
  induction waiting with
  | nil => rfl
  | cons record rest later =>
      cases record with
      | held bytes => rfl
      | submitted bytes => rfl
      | discarded => exact later

/-- No record leaves the queue while a writer holds it. -/
theorem takeFirst_settled (waiting : List ClaimedRecord) :
    ∀ record ∈ waiting.take (takeFirst waiting).2, record.held? = none := by
  induction waiting with
  | nil => exact fun _ listed => (by cases listed)
  | cons record rest later =>
      cases record with
      | held bytes => exact fun _ listed => (by cases listed)
      | submitted bytes => exact List.forall_mem_singleton.mpr rfl
      | discarded => exact List.forall_mem_cons.mpr ⟨rfl, later⟩

/-- When no writer holds a record that waits, one of them leaves the queue. -/
theorem takeFirst_pos
    {waiting : List ClaimedRecord}
    (present : waiting ≠ []) (settled : ∀ record ∈ waiting, record.held? = none) :
    0 < (takeFirst waiting).2 := by
  cases waiting with
  | nil => exact absurd rfl present
  | cons record rest =>
      cases record with
      | held bytes => exact absurd (settled _ List.mem_cons_self) (Option.some_ne_none bytes)
      | submitted bytes => exact Nat.one_pos
      | discarded => exact Nat.succ_pos _

/-- What holds of a queue whatever it has been asked. -/
structure WellFormed (queue : BoundedQueue) : Prop where
  ordered : queue.left ≤ queue.records.length
  bounded : queue.pending ≤ queue.capacity
  /-- No record leaves the queue while its writer holds it. -/
  settled : ∀ record ∈ queue.records.take queue.left, record.held? = none

section

variable {queue : BoundedQueue}

theorem create_wellFormed (recordSize capacity : Nat) :
    WellFormed { recordSize, capacity } where
  ordered := Nat.le_refl 0
  bounded := Nat.zero_le capacity
  settled _ listed := by cases listed

/-- Records that are held have not left the queue. -/
theorem WellFormed.left_le
    {number : Nat} {bytes : Bytes}
    (wellFormed : queue.WellFormed) (held : queue.held? number = some bytes) :
    queue.left ≤ number := by
  rcases Option.bind_eq_some_iff.mp held with ⟨record, there, holds⟩
  refine Nat.le_of_not_lt fun early => ?_
  have listed : record ∈ queue.records.take queue.left :=
    List.mem_of_getElem? ((List.getElem?_take_of_lt early).trans there)
  rw [wellFormed.settled record listed] at holds
  cases holds

theorem WellFormed.setRecord
    {number : Nat} {bytes : Bytes}
    (wellFormed : queue.WellFormed) (held : queue.held? number = some bytes)
    (record : ClaimedRecord) :
    (queue.setRecord number record).WellFormed where
  ordered := by
    rw [BoundedQueue.setRecord, List.length_set]
    exact wellFormed.ordered
  bounded := by
    rw [pending, BoundedQueue.setRecord, List.length_set]
    exact wellFormed.bounded
  settled := by
    rw [BoundedQueue.setRecord, List.take_set_of_le (wellFormed.left_le held)]
    exact wellFormed.settled

/-- Another record is claimed only where there is room for it. -/
theorem WellFormed.claim
    (wellFormed : queue.WellFormed) (room : queue.pending < queue.capacity)
    (record : ClaimedRecord) :
    WellFormed { queue with records := queue.records ++ [record] } := by
  have ordered := wellFormed.ordered
  rw [pending] at room
  refine ⟨?_, ?_, ?_⟩
  · rw [List.length_append]
    exact Nat.le_trans ordered (Nat.le_add_right _ _)
  · rw [pending, List.length_append, List.length_singleton]
    show queue.records.length + 1 - queue.left ≤ queue.capacity
    omega
  · rw [List.take_append_of_le_length ordered]
    exact wellFormed.settled

theorem WellFormed.advance
    {record : ClaimedRecord}
    (wellFormed : queue.WellFormed) (front : queue.records[queue.left]? = some record)
    (settled : record.held? = none) :
    queue.advance.WellFormed := by
  rcases List.getElem?_eq_some_iff.mp front with ⟨inside, there⟩
  have bounded := wellFormed.bounded
  rw [pending] at bounded
  refine ⟨inside, ?_, ?_⟩
  · show queue.records.length - (queue.left + 1) ≤ queue.capacity
    omega
  · rw [BoundedQueue.advance, List.take_succ_eq_append_getElem inside, there]
    exact List.forall_mem_append.mpr ⟨wellFormed.settled, List.forall_mem_singleton.mpr settled⟩

/-- The consumer leaves the queue well formed. -/
theorem WellFormed.poll (wellFormed : queue.WellFormed) : queue.poll.2.WellFormed := by
  have short := takeFirst_le (queue.records.drop queue.left)
  have ordered := wellFormed.ordered
  have bounded := wellFormed.bounded
  rw [List.length_drop] at short
  rw [pending] at bounded
  refine ⟨?_, ?_, ?_⟩
  · show queue.left + _ ≤ queue.records.length
    omega
  · show queue.records.length - (queue.left + _) ≤ queue.capacity
    omega
  · rw [BoundedQueue.poll, List.take_add]
    exact List.forall_mem_append.mpr ⟨wellFormed.settled, takeFirst_settled _⟩

/-- What a call can come to. -/
inductive Handles (queue : BoundedQueue) : RingAnswer → BoundedQueue → Prop
  | still (answer : RingAnswer) (silent : answer.record? = none) : queue.Handles answer queue
  | refuses : queue.Handles (.claimed none) { queue with refused := queue.refused + 1 }
  | claims (record : ClaimedRecord) (number : Nat) (room : queue.pending < queue.capacity) :
      queue.Handles (.claimed (some number)) { queue with records := queue.records ++ [record] }
  | sets (answer : RingAnswer) (silent : answer.record? = none) (number : Nat) (bytes : Bytes)
      (held : queue.held? number = some bytes) (record : ClaimedRecord) :
      queue.Handles answer (queue.setRecord number record)
  | polls : queue.Handles (.taken queue.poll.1) queue.poll.2

theorem complete_handles (queue : BoundedQueue) (number : Nat) (become : Bytes → ClaimedRecord) :
    queue.Handles (queue.complete number become).1 (queue.complete number become).2 := by
  rw [complete]
  split
  case h_1 => exact .still _ rfl
  case h_2 bytes held => exact .sets _ rfl number bytes held _

/-- Every call is one of the ways to handle the queue. -/
theorem handles (queue : BoundedQueue) (call : RingCall) :
    queue.Handles (handle call queue).1 (handle call queue).2 := by
  cases call with
  | reserve length =>
      rw [handle, reserve]
      split
      case isTrue => exact .still _ rfl
      case isFalse =>
        split
        case isTrue room => exact .claims _ _ room
        case isFalse => exact .refuses
  | write number offset data =>
      rw [handle, write]
      split
      case h_1 => exact .still _ rfl
      case h_2 bytes held =>
        split
        case isTrue => exact .still _ rfl
        case isFalse => exact .sets _ rfl number bytes held _
  | submit number => exact queue.complete_handles number _
  | discard number => exact queue.complete_handles number _
  | drop number => exact queue.complete_handles number _
  | poll => exact .polls

/-- Every call leaves the queue well formed. -/
theorem WellFormed.handle
    (wellFormed : queue.WellFormed) (call : RingCall) :
    (BoundedQueue.handle call queue).2.WellFormed := by
  have handles := queue.handles call
  generalize BoundedQueue.handle call queue = handled at handles ⊢
  rcases handled with ⟨answer, next⟩
  cases handles with
  | still _ silent => exact wellFormed
  | refuses => exact ⟨wellFormed.ordered, wellFormed.bounded, wellFormed.settled⟩
  | claims record number room => exact wellFormed.claim room record
  | sets _ silent number bytes held record => exact wellFormed.setRecord held record
  | polls => exact wellFormed.poll

/-- A poll that returns a record adds it to those that have left the queue; nothing else does. -/
theorem handle_delivered (wellFormed : queue.WellFormed) (call : RingCall) :
    (BoundedQueue.handle call queue).2.delivered =
      queue.delivered ++ (BoundedQueue.handle call queue).1.record?.toList := by
  have handles := queue.handles call
  generalize BoundedQueue.handle call queue = handled at handles ⊢
  rcases handled with ⟨answer, next⟩
  cases handles with
  | still _ silent => rw [silent, Option.toList_none, List.append_nil]
  | refuses => exact (List.append_nil _).symm
  | claims record number room =>
      rw [delivered, List.take_append_of_le_length wellFormed.ordered]
      exact (List.append_nil _).symm
  | sets _ silent number bytes held record =>
      have front : (queue.records.set number record).take queue.left =
          queue.records.take queue.left := List.take_set_of_le (wellFormed.left_le held)
      rw [silent, Option.toList_none, List.append_nil]
      exact congrArg (List.filterMap ClaimedRecord.submitted?) front
  | polls =>
      rw [delivered, BoundedQueue.poll, List.take_add, List.filterMap_append, takeFirst_submitted]
      rfl

theorem handle_capacity (queue : BoundedQueue) (call : RingCall) :
    (handle call queue).2.capacity = queue.capacity := by
  have handles := queue.handles call
  generalize handle call queue = handled at handles ⊢
  rcases handled with ⟨answer, next⟩
  cases handles <;> rfl

theorem WellFormed.run
    (calls : List RingCall) (wellFormed : queue.WellFormed) :
    (answerAll BoundedQueue.handle calls queue).2.WellFormed :=
  answerAll_keeps (fun call _ held => held.handle call) calls wellFormed

theorem run_capacity (calls : List RingCall) (queue : BoundedQueue) :
    (answerAll handle calls queue).2.capacity = queue.capacity := by
  have keeps (call : RingCall) (next : BoundedQueue) (same : next.capacity = queue.capacity) :
      (handle call next).2.capacity = queue.capacity :=
    (next.handle_capacity call).trans same
  exact answerAll_keeps keeps calls rfl

/-- The reader gets every submitted record that leaves the queue, once and in order. -/
theorem run_delivered (calls : List RingCall) :
    ∀ {queue : BoundedQueue}, queue.WellFormed →
      (answerAll handle calls queue).2.delivered =
        queue.delivered ++ RingAnswer.delivered (answerAll handle calls queue).1 := by
  induction calls with
  | nil => exact fun _ => (List.append_nil _).symm
  | cons call calls continues =>
      intro queue wellFormed
      rw [answerAll_cons, continues (wellFormed.handle call), handle_delivered wellFormed,
        List.append_assoc]
      congr 1
      rw [RingAnswer.delivered, RingAnswer.delivered, List.filterMap_cons]
      cases (handle call queue).1.record? <;> rfl

/-- As many polls as records wait bring them all out, if no writer holds one. -/
theorem run_polls (polls : Nat) :
    ∀ {queue : BoundedQueue}, queue.WellFormed → queue.pending ≤ polls →
      (∀ record ∈ queue.records, record.held? = none) →
        (answerAll handle (List.replicate polls .poll) queue).2.delivered =
          queue.records.filterMap ClaimedRecord.submitted? := by
  induction polls with
  | zero =>
      intro queue _ few _
      rw [pending] at few
      have all : queue.records.take queue.left = queue.records :=
        List.take_of_length_le (by omega)
      rw [List.replicate_zero, answerAll_nil, delivered, all]
  | succ polls continues =>
      intro queue wellFormed few settled
      rw [List.replicate_succ, answerAll_cons]
      refine continues (wellFormed.handle .poll) ?_ settled
      show queue.records.length - (queue.left + (takeFirst (queue.records.drop queue.left)).2) ≤
        polls
      rw [pending] at few
      by_cases empty : queue.records.drop queue.left = []
      · rw [List.drop_eq_nil_iff] at empty
        omega
      · have advances := takeFirst_pos empty fun record waits =>
          settled record (List.mem_of_mem_drop waits)
        omega

end

end BoundedQueue

end PacketFilter
