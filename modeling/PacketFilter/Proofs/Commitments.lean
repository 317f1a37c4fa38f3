import PacketFilter.Proofs.Delivery
import PacketFilter.Proofs.RingOutlines

/-!
# Claims and commitments

A position of a ring is open from its claim until its record is submitted or
discarded, which commits it.  No position is claimed twice, and an open one stays
open whatever becomes of other positions.  A committed one stays committed as it
is: only the reader frees its slot, unless the ring has no other slot.
-/

namespace PacketFilter

/-! ## Positions of a ring -/

namespace Ring

/-- How far the slot of a position has got, and whether the last record there was discarded. -/
def mark? (ring : Ring) (position : Nat) : Option (Nat × Bool) :=
  ring.slots[position % ring.capacity]?.map fun slot => (slot.sequence, slot.isDiscarded)

/-- The position has been claimed, and the reader waits for its record. -/
structure IsOpen (ring : Ring) (position : Nat) : Prop where
  claimed : position < ring.tail
  waits : ∀ mark ∈ ring.mark? position, mark.1 = position

/-- The record at the position has been submitted or discarded.  The slot shows so, unless it is the
only one and may have been claimed again since. -/
structure IsCommitted (ring : Ring) (position : Nat) (isDiscarded : Bool) : Prop where
  claimed : position < ring.tail
  passed : ∀ mark ∈ ring.mark? position, position < mark.1
  shows : 1 < ring.capacity → ∀ mark ∈ ring.mark? position, mark = (position + 1, isDiscarded)

/-- All that claiming a position changes is the tail. -/
structure Claims (before after : Ring) (position : Nat) : Prop where
  first : position = before.tail
  free : ∀ mark ∈ before.mark? position, mark.1 = position
  tail : after.tail = before.tail + 1
  capacity : after.capacity = before.capacity
  marks : after.mark? = before.mark?

variable {ring ring' : Ring} {position other : Nat} {isDiscarded : Bool}

/-- The marks of the slots are part of the outline. -/
theorem mark?_of_outline (same : ring'.outline = ring.outline) : ring'.mark? = ring.mark? := by
  have read (ring : Ring) : ring.outline.mark? = ring.mark? := by
    funext position
    rw [mark?, mark?, capacity_outline, outline, Array.getElem?_map, Option.map_map]
    rfl
  rw [← read ring', same, read]

theorem capacity_of_outline (same : ring'.outline = ring.outline) :
    ring'.capacity = ring.capacity := by
  rw [← capacity_outline ring', same, capacity_outline]

theorem mark?_modifySlot
    {change : RingSlot → RingSlot} (ring : Ring) (position : Nat)
    (same : ∀ slot, (change slot).sequence = slot.sequence ∧
      (change slot).isDiscarded = slot.isDiscarded) :
    (ring.modifySlot position change).mark? = ring.mark? := by
  funext other
  rw [mark?, mark?, capacity_modifySlot, modifySlot, Array.getElem?_modify]
  split
  · rw [Option.map_map]
    exact congrArg (Option.map · _) (funext fun slot => Prod.ext (same slot).1 (same slot).2)
  · rfl

theorem capacity_complete (ring : Ring) (position : Nat) (isDiscarded : Bool) :
    (ring.complete position isDiscarded).capacity = ring.capacity :=
  ring.capacity_modifySlot position _

/-- Completing a record marks its slot and no other. -/
theorem mark?_complete (ring : Ring) (position : Nat) (isDiscarded : Bool) (other : Nat) :
    (ring.complete position isDiscarded).mark? other =
      if position % ring.capacity = other % ring.capacity then
        (ring.mark? other).map fun _ => (position + 1, isDiscarded)
      else ring.mark? other := by
  rw [mark?, mark?, capacity_complete, complete, modifySlot, Array.getElem?_modify]
  split
  · rw [Option.map_map, Option.map_map]
    rfl
  · rfl

/-- A reservation claims the slot of its position. -/
theorem reserve_claims
    {length : Nat} {reservation : Reservation}
    (claimed : ring.reserve length = (some reservation, ring')) :
    ring.Claims ring' reservation.position := by
  simp only [reserve] at claimed
  split at claimed
  · cases claimed
  · split at claimed
    case isTrue free =>
      cases claimed
      refine ⟨rfl, ?_, rfl, ring.capacity_modifySlot _ _,
        ring.mark?_modifySlot _ fun _ => ⟨rfl, rfl⟩⟩
      intro mark there
      rcases Option.map_eq_some_iff.mp there with ⟨slot, held, rfl⟩
      rw [Ring.slot, held] at free
      exact free
    case isFalse => split at claimed <;> cases claimed

theorem outline_complete_congr
    (same : ring'.outline = ring.outline) (position : Nat) (isDiscarded : Bool) :
    (ring'.complete position isDiscarded).outline =
      (ring.complete position isDiscarded).outline := by
  have moves (ring : Ring) :
      (ring.complete position isDiscarded).outline =
        ring.outline.complete position isDiscarded := by
    simp only [complete, modifySlot, capacity_outline]
    rw [outline, outline, Ring.mk.injEq]
    refine ⟨rfl, Array.ext_getElem? fun index => ?_, rfl, rfl, rfl⟩
    rw [Array.getElem?_map, Array.getElem?_modify, Array.getElem?_modify, Array.getElem?_map]
    split
    · rw [Option.map_map, Option.map_map]
      rfl
    · rfl
  rw [moves, moves, same]

/-- Data is queued by a claim that is submitted at once. -/
theorem outline_output
    {data : Bytes} {reservation : Reservation}
    (queued : ring.output? data = (some reservation, ring')) :
    ∃ claimed, ring.reserve data.size = (some reservation, claimed) ∧
      ring'.outline = (claimed.complete reservation.position false).outline := by
  simp only [output?] at queued
  split at queued
  case h_1 => cases queued
  case h_2 reservation claimed claims =>
    cases queued
    refine ⟨claimed, claims, outline_complete_congr ?_ _ _⟩
    rw [write?]
    split
    · rfl
    · cases (claimed.cell reservation.position).write? 0 data.toList with
      | none => rfl
      | some cell => exact claimed.outline_setCell _ cell

/-! ### What stays -/

/-- Whether a record is open shows in the outline. -/
theorem IsOpen.congr (isOpen : ring.IsOpen position) (same : ring'.outline = ring.outline) :
    ring'.IsOpen position := by
  have tail : ring'.outline.tail = ring.outline.tail := congrArg Ring.tail same
  refine ⟨isOpen.claimed.trans_eq tail.symm, ?_⟩
  rw [mark?_of_outline same]
  exact isOpen.waits

theorem IsCommitted.congr
    (committed : ring.IsCommitted position isDiscarded) (same : ring'.outline = ring.outline) :
    ring'.IsCommitted position isDiscarded := by
  have tail : ring'.outline.tail = ring.outline.tail := congrArg Ring.tail same
  refine ⟨committed.claimed.trans_eq tail.symm, ?_, ?_⟩
  · rw [mark?_of_outline same]
    exact committed.passed
  · rw [mark?_of_outline same, capacity_of_outline same]
    exact committed.shows

namespace Claims

/-- The record that was claimed is open. -/
theorem opens (claims : ring.Claims ring' position) : ring'.IsOpen position := by
  refine ⟨?_, ?_⟩
  · rw [claims.tail, claims.first]
    exact Nat.lt_succ_self _
  · rw [claims.marks]
    exact claims.free

/-- Records that were open stay so while another is claimed. -/
theorem isOpen (claims : ring.Claims ring' position) (isOpen : ring.IsOpen other) :
    ring'.IsOpen other := by
  refine ⟨?_, ?_⟩
  · rw [claims.tail]
    exact Nat.lt_succ_of_lt isOpen.claimed
  · rw [claims.marks]
    exact isOpen.waits

theorem isCommitted
    (claims : ring.Claims ring' position) (committed : ring.IsCommitted other isDiscarded) :
    ring'.IsCommitted other isDiscarded := by
  refine ⟨?_, ?_, ?_⟩
  · rw [claims.tail]
    exact Nat.lt_succ_of_lt committed.claimed
  · rw [claims.marks]
    exact committed.passed
  · rw [claims.marks, claims.capacity]
    exact committed.shows

end Claims

namespace IsOpen

/-- An open record that is completed is committed as it was completed. -/
theorem complete (isOpen : ring.IsOpen position) (isDiscarded : Bool) :
    (ring.complete position isDiscarded).IsCommitted position isDiscarded := by
  have shows : ∀ mark ∈ (ring.complete position isDiscarded).mark? position,
      mark = (position + 1, isDiscarded) := by
    rw [mark?_complete, if_pos rfl]
    intro mark there
    rcases Option.map_eq_some_iff.mp there with ⟨_, _, rfl⟩
    rfl
  refine ⟨isOpen.claimed, fun mark there => ?_, fun _ => shows⟩
  rw [shows mark there]
  exact Nat.lt_succ_self position

/-- Of two positions that are open, each has a slot of its own. -/
theorem complete_other
    (isOpen : ring.IsOpen position) (other_isOpen : ring.IsOpen other) (apart : position ≠ other)
    (isDiscarded : Bool) :
    (ring.complete position isDiscarded).IsOpen other := by
  refine ⟨other_isOpen.claimed, ?_⟩
  rw [mark?_complete]
  split
  case isTrue sameSlot =>
    intro mark there
    rcases Option.map_eq_some_iff.mp there with ⟨held, holds, _⟩
    have here : ring.mark? position = ring.mark? other := by rw [mark?, mark?, sameSlot]
    exact absurd ((isOpen.waits held (here.trans holds)).symm.trans (other_isOpen.waits held holds))
      apart
  case isFalse => exact other_isOpen.waits

end IsOpen

/-- Completing an open record leaves committed ones as they are. -/
theorem IsCommitted.complete_other
    {wasDiscarded : Bool} (committed : ring.IsCommitted other wasDiscarded)
    (isOpen : ring.IsOpen position) (isDiscarded : Bool) :
    (ring.complete position isDiscarded).IsCommitted other wasDiscarded := by
  by_cases sameSlot : position % ring.capacity = other % ring.capacity
  · have here : ring.mark? position = ring.mark? other := by rw [mark?, mark?, sameSlot]
    have later (held : Nat × Bool) (holds : ring.mark? other = some held) : other < position := by
      rw [← isOpen.waits held (here.trans holds)]
      exact committed.passed held holds
    refine ⟨committed.claimed, ?_, fun several => ?_⟩ <;>
      rw [mark?_complete, if_pos sameSlot] <;> intro mark there <;>
      rcases Option.map_eq_some_iff.mp there with ⟨held, holds, rfl⟩
    · exact Nat.lt_succ_of_lt (later held holds)
    · -- The slot has got as far as the committed position takes it, which is no further than the
      -- position after that; and with several slots the two are in different ones.
      rw [capacity_complete] at several
      have shown := committed.shows several held holds
      have next : position = other + 1 := by
        rw [← isOpen.waits held (here.trans holds), shown]
      have same := eq_of_sameSlot sameSlot (by omega) (by omega)
      omega
  · refine ⟨committed.claimed, ?_, fun several => ?_⟩ <;> rw [mark?_complete, if_neg sameSlot]
    · exact committed.passed
    · rw [capacity_complete] at several
      exact committed.shows several

end Ring

/-! ## Records of a store -/

/-- Where the record is: the ring, and the position there. -/
def OpenRecord.place (record : OpenRecord) : MapId × Nat :=
  (record.map, record.reservation.position)

namespace Store

/-- Submit or discard a record. -/
def commit (store : Store) (record : OpenRecord) (isDiscarded : Bool) : Store :=
  store.modifyRing record.map fun ring => ring.complete record.reservation.position isDiscarded

/-- The record is open in its ring. -/
def Awaits (store : Store) (record : OpenRecord) : Prop :=
  ∃ ring, store.ring? record.map = some ring ∧ ring.IsOpen record.reservation.position

/-- The record is committed in its ring. -/
def HasCommitted (store : Store) (record : OpenRecord) (isDiscarded : Bool) : Prop :=
  ∃ ring, store.ring? record.map = some ring ∧
    ring.IsCommitted record.reservation.position isDiscarded

/-- Some records are open in their rings and others committed, and no two are at one place. -/
structure Honors (store : Store) (waiting : List OpenRecord) (commits : List (OpenRecord × Bool)) :
    Prop where
  apart : ((waiting ++ commits.map Prod.fst).map OpenRecord.place).Nodup
  awaits : ∀ record ∈ waiting, store.Awaits record
  committed : ∀ commit ∈ commits, store.HasCommitted commit.1 commit.2

namespace Honors

variable {store store' : Store} {waiting waiting' : List OpenRecord}
variable {commits commits' : List (OpenRecord × Bool)} {record : OpenRecord}

/-- At the start there is nothing to honour. -/
theorem none (store : Store) : store.Honors [] [] :=
  ⟨List.nodup_nil, fun _ listed => (by cases listed), fun _ listed => (by cases listed)⟩

theorem perm
    (honors : store.Honors waiting commits) (open' : waiting.Perm waiting')
    (done : commits.Perm commits') : store.Honors waiting' commits' where
  apart := (((open'.append (done.map Prod.fst)).map OpenRecord.place).nodup_iff).mp honors.apart
  awaits record listed := honors.awaits record (open'.mem_iff.mpr listed)
  committed commit listed := honors.committed commit (done.mem_iff.mpr listed)

/-- Whatever keeps open positions open and committed ones committed keeps the records. -/
theorem mono
    (honors : store.Honors waiting commits)
    (rings : ∀ id ring, store.ring? id = some ring → ∃ ring', store'.ring? id = some ring' ∧
      (∀ position, ring.IsOpen position → ring'.IsOpen position) ∧
        ∀ position isDiscarded, ring.IsCommitted position isDiscarded →
          ring'.IsCommitted position isDiscarded) :
    store'.Honors waiting commits where
  apart := honors.apart
  awaits record listed := by
    rcases honors.awaits record listed with ⟨ring, there, isOpen⟩
    rcases rings record.map ring there with ⟨ring', there', opens, _⟩
    exact ⟨ring', there', opens _ isOpen⟩
  committed commit listed := by
    rcases honors.committed commit listed with ⟨ring, there, committed⟩
    rcases rings commit.1.map ring there with ⟨ring', there', _, commits⟩
    exact ⟨ring', there', commits _ _ committed⟩

/-- What is honoured depends on the outlines of the rings alone. -/
theorem sameRings (honors : store.Honors waiting commits) (same : store.SameRings store') :
    store'.Honors waiting commits := by
  refine honors.mono fun id ring there => ?_
  have outlines := same id
  rw [there, Option.map_some] at outlines
  rcases Option.map_eq_some_iff.mp outlines with ⟨ring', there', outline⟩
  exact ⟨ring', there', fun _ isOpen => isOpen.congr outline,
    fun _ _ committed => committed.congr outline⟩

/-- All that has been claimed in a ring lies before its tail. -/
theorem lt_tail
    {ring : Ring} (honors : store.Honors waiting commits)
    (listed : record ∈ waiting ++ commits.map Prod.fst)
    (there : store.ring? record.map = some ring) :
    record.reservation.position < ring.tail := by
  rcases List.mem_append.mp listed with listed | listed
  · rcases honors.awaits record listed with ⟨ring', there', isOpen⟩
    cases there.symm.trans there'
    exact isOpen.claimed
  · rcases List.mem_map.mp listed with ⟨commit, done, rfl⟩
    rcases honors.committed commit done with ⟨ring', there', committed⟩
    cases there.symm.trans there'
    exact committed.claimed

/-- A record that is claimed waits with the others. -/
theorem claim
    {length : Nat} (honors : store.Honors waiting commits)
    (claims : store.onRing record.map (fun ring => ring.reserve length) =
      (some (some record.reservation), store')) :
    store'.Honors (record :: waiting) commits := by
  have result := store.onRing_fst record.map fun ring => ring.reserve length
  rw [claims] at result
  rcases Option.map_eq_some_iff.mp result.symm with ⟨ring, there, claimed⟩
  have claims' : ring.Claims (ring.reserve length).2 record.reservation.position :=
    Ring.reserve_claims (Prod.ext claimed rfl)
  have rings (id : MapId) :
      store'.ring? id =
        if record.map = id then some (ring.reserve length).2 else store.ring? id := by
    have changed := store.ring?_onRing record.map (fun ring => ring.reserve length) id
    rw [claims, there, Option.map_some] at changed
    exact changed
  have kept : store'.Honors waiting commits := by
    refine honors.mono fun id held holds => ?_
    rw [rings]
    split
    case isTrue same =>
      cases (same ▸ there).symm.trans holds
      exact ⟨_, rfl, fun _ => claims'.isOpen, fun _ _ => claims'.isCommitted⟩
    case isFalse => exact ⟨held, holds, fun _ isOpen => isOpen, fun _ _ committed => committed⟩
  refine ⟨?_, List.forall_mem_cons.mpr ⟨⟨_, (rings record.map).trans (if_pos rfl), claims'.opens⟩,
    kept.awaits⟩, kept.committed⟩
  refine List.nodup_cons.mpr ⟨fun taken => ?_, honors.apart⟩
  rcases List.mem_map.mp taken with ⟨other, listed, samePlace⟩
  rcases Prod.mk.inj samePlace with ⟨map, position⟩
  have before := honors.lt_tail listed (map ▸ there)
  rw [position, claims'.first] at before
  exact Nat.lt_irrefl _ before

/-- A record that waits is committed, and counted among the commits. -/
theorem commit
    (honors : store.Honors (record :: waiting) commits) (isDiscarded : Bool) :
    (store.commit record isDiscarded).Honors waiting ((record, isDiscarded) :: commits) := by
  rcases honors.awaits record List.mem_cons_self with ⟨ring, there, isOpen⟩
  have rings (id : MapId) :
      (store.commit record isDiscarded).ring? id =
        if record.map = id then some (ring.complete record.reservation.position isDiscarded)
        else store.ring? id := by
    rw [Store.commit, ring?_modifyRing, there, Option.map_some]
  refine ⟨?_, fun other listed => ?_, List.forall_mem_cons.mpr
    ⟨⟨_, (rings record.map).trans (if_pos rfl), isOpen.complete isDiscarded⟩,
      fun done listed => ?_⟩⟩
  · exact ((List.perm_middle.map OpenRecord.place).nodup_iff).mpr honors.apart
  · rcases honors.awaits other (List.mem_cons_of_mem _ listed) with ⟨ring', there', isOpen'⟩
    by_cases same : record.map = other.map
    · cases (same ▸ there).symm.trans there'
      refine ⟨_, (rings other.map).trans (if_pos same),
        isOpen.complete_other isOpen' ?_ isDiscarded⟩
      intro position
      refine (List.nodup_cons.mp honors.apart).1 (List.mem_map.mpr ⟨other, ?_, ?_⟩)
      · exact List.mem_append_left _ listed
      · exact Prod.ext same.symm position.symm
    · exact ⟨ring', (rings other.map).trans ((if_neg same).trans there'), isOpen'⟩
  · rcases honors.committed done listed with ⟨ring', there', committed⟩
    by_cases same : record.map = done.1.map
    · cases (same ▸ there).symm.trans there'
      exact ⟨_, (rings done.1.map).trans (if_pos same), committed.complete_other isOpen isDiscarded⟩
    · exact ⟨ring', (rings done.1.map).trans ((if_neg same).trans there'), committed⟩

/-- Data that has been queued is a record that has been submitted. -/
theorem output
    {data : Bytes} (honors : store.Honors waiting commits)
    (queued : store.onRing record.map (fun ring => ring.output? data) =
      (some (some record.reservation), store')) :
    store'.Honors waiting ((record, false) :: commits) := by
  have result := store.onRing_fst record.map fun ring => ring.output? data
  rw [queued] at result
  rcases Option.map_eq_some_iff.mp result.symm with ⟨ring, there, answered⟩
  rcases Ring.outline_output (Prod.ext answered rfl) with ⟨claimed, reserved, outline⟩
  have claims : store.onRing record.map (fun ring => ring.reserve data.size) =
      (some (some record.reservation),
        (store.onRing record.map fun ring => ring.reserve data.size).2) := by
    refine Prod.ext ?_ rfl
    rw [onRing_fst, there, Option.map_some, reserved]
  refine ((honors.claim claims).commit false).sameRings fun id => ?_
  have changed := store.ring?_onRing record.map (fun ring => ring.output? data) id
  rw [queued] at changed
  rw [changed, Store.commit, ring?_modifyRing, ring?_onRing, ring?_onRing, there]
  split
  · simp only [if_true, Option.map_some, reserved, outline]
  · rfl

/-- All records that wait are committed in the same way. -/
theorem commitAll
    (waiting : List OpenRecord) (isDiscarded : Bool) :
    ∀ {store : Store} {commits : List (OpenRecord × Bool)}, store.Honors waiting commits →
      (waiting.foldl (fun store record => store.commit record isDiscarded) store).Honors []
        (waiting.map (fun record => (record, isDiscarded)) ++ commits) := by
  induction waiting with
  | nil => exact fun honors => honors
  | cons record rest continues =>
      intro store commits honors
      exact (continues (honors.commit isDiscarded)).perm .rfl List.perm_middle

end Honors

end Store

end PacketFilter
