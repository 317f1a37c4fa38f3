import Mathlib.Data.List.Nodup
import PacketFilter.Proofs.RecencyTable

/-!
# The order of use of a table that forgets

The entries of a table are a list whose elements name each other: read from the
head on, every entry names the slot of the one before it and of the one after
it.  `Segment` says so of a part of the list, from what comes before that part
to what comes after it, so that taking an entry out and putting one in front
are changes at the ends of parts.
-/

namespace PacketFilter

/-- A slot with the entry in it. -/
structure RecencySpot (α : Type) where
  slot : Nat
  key : Bytes
  value : α

namespace RecencyTable

variable {α : Type} {table other : RecencyTable α}

/-- The first slot of a part of the list, or else what comes after it. -/
def first? (spots : List (RecencySpot α)) (after? : Option Nat) : Option Nat :=
  match spots with
  | [] => after?
  | spot :: _ => some spot.slot

/-- The last slot of a part of the list, or else what comes before it. -/
def last? : Option Nat → List (RecencySpot α) → Option Nat
  | before?, [] => before?
  | _, spot :: rest => last? (some spot.slot) rest

/-- The slots hold these entries, each naming its neighbours. -/
def Segment (table : RecencyTable α) : Option Nat → List (RecencySpot α) → Option Nat → Prop
  | _, [], _ => True
  | before?, spot :: rest, after? =>
    table.node? (some spot.slot) = some ⟨spot.key, spot.value, before?, first? rest after?⟩ ∧
      table.Segment (some spot.slot) rest after?

/-- The slot is that of one of the entries. -/
def Among (slot : Nat) (spots : List (RecencySpot α)) : Prop :=
  slot ∈ spots.map RecencySpot.slot

/-- The first slot of two parts is the one of the front, or else of the back. -/
theorem first?_append (front back : List (RecencySpot α)) (after? : Option Nat) :
    first? (front ++ back) after? = first? front (first? back after?) := by
  cases front <;> rfl

theorem last?_append (front back : List (RecencySpot α)) :
    ∀ before? : Option Nat, last? before? (front ++ back) = last? (last? before? front) back := by
  induction front with
  | nil => exact fun _ => rfl
  | cons spot rest later => exact fun _ => later (some spot.slot)

theorem last?_among {spots : List (RecencySpot α)} :
    ∀ {before? : Option Nat}, spots ≠ [] →
      ∃ slot, last? before? spots = some slot ∧ Among slot spots := by
  induction spots with
  | nil => exact fun present => absurd rfl present
  | cons spot rest later =>
      intro before? _
      rcases rest with _ | ⟨second, rest⟩
      · exact ⟨spot.slot, rfl, List.mem_cons_self⟩
      · rcases @later (some spot.slot) (List.cons_ne_nil _ _) with ⟨slot, last, among⟩
        exact ⟨slot, last, List.mem_cons_of_mem _ among⟩

namespace Segment

/-- Two parts form a segment just when each does, linked to the other. -/
theorem append
    {front back : List (RecencySpot α)} {after? : Option Nat} :
    ∀ {before? : Option Nat}, table.Segment before? (front ++ back) after? ↔
      table.Segment before? front (first? back after?) ∧
        table.Segment (last? before? front) back after? := by
  induction front with
  | nil => exact (iff_of_eq (true_and _)).symm
  | cons spot rest later =>
      intro before?
      rw [List.cons_append, Segment, Segment, last?, later, first?_append, and_assoc]

/-- Only the slots of the entries matter. -/
theorem congr
    {spots : List (RecencySpot α)} {after? : Option Nat} :
    ∀ {before? : Option Nat}, table.Segment before? spots after? →
      (∀ slot, Among slot spots → other.node? (some slot) = table.node? (some slot)) →
        other.Segment before? spots after? := by
  induction spots with
  | nil => exact fun _ _ => trivial
  | cons spot rest later =>
      intro before? segment same
      refine ⟨(same spot.slot List.mem_cons_self).trans segment.1, later segment.2 ?_⟩
      exact fun slot among => same slot (List.mem_cons_of_mem _ among)

theorem pair?
    {spots : List (RecencySpot α)} {after? : Option Nat} {spot : RecencySpot α} :
    ∀ {before? : Option Nat}, table.Segment before? spots after? → spot ∈ spots →
      table.pair? (some spot.slot) = some (spot.key, spot.value) := by
  induction spots with
  | nil => exact fun _ listed => (by cases listed)
  | cons spot' rest later =>
      intro before? segment listed
      rcases List.mem_cons.mp listed with rfl | listed
      · rw [RecencyTable.pair?, segment.1]
        rfl
      · exact later segment.2 listed

theorem isSome
    {spots : List (RecencySpot α)} {before? after? : Option Nat} {slot : Nat}
    (segment : table.Segment before? spots after?) (among : Among slot spots) :
    ∃ node, table.node? (some slot) = some node := by
  rcases List.mem_map.mp among with ⟨spot, listed, rfl⟩
  rcases Option.map_eq_some_iff.mp (segment.pair? listed) with ⟨node, there, _⟩
  exact ⟨node, there⟩

/-- Let the last entry of a part name another one after it. -/
theorem setNext
    {spots : List (RecencySpot α)} {after? : Option Nat} (next? : Option Nat) :
    ∀ {before? : Option Nat}, table.Segment before? spots after? →
      (spots.map RecencySpot.slot).Nodup → spots ≠ [] →
        (table.changeNode (last? before? spots) fun node => { node with next? }).Segment before?
          spots next? := by
  induction spots with
  | nil => exact fun _ _ present => absurd rfl present
  | cons spot rest later =>
      intro before? segment distinct _
      rw [List.map_cons, List.nodup_cons] at distinct
      cases rest with
      | nil =>
          refine ⟨?_, trivial⟩
          rw [last?, last?, node?_changeNode, if_pos rfl, segment.1]
          rfl
      | cons second rest =>
          have apart : last? (some spot.slot) (second :: rest) ≠ some spot.slot := by
            rcases @last?_among _ (second :: rest) (some spot.slot) (List.cons_ne_nil _ _) with
              ⟨slot, last, among⟩
            exact fun same => distinct.1 (Option.some.inj (last.symm.trans same) ▸ among)
          refine ⟨?_, later segment.2 distinct.2 (List.cons_ne_nil _ _)⟩
          rw [last?, node?_changeNode, if_neg apart, segment.1]
          rfl

/-- Let the first entry of a part name another one before it. -/
theorem setPrevious
    {spots : List (RecencySpot α)} {before? after? : Option Nat}
    (segment : table.Segment before? spots after?) (distinct : (spots.map RecencySpot.slot).Nodup)
    (present : spots ≠ []) (previous? : Option Nat) :
    (table.changeNode (first? spots none) fun node => { node with previous? }).Segment previous?
      spots after? := by
  cases spots with
  | nil => exact absurd rfl present
  | cons spot rest =>
      rw [List.map_cons, List.nodup_cons] at distinct
      refine ⟨?_, segment.2.congr fun slot among => ?_⟩
      · rw [first?, node?_changeNode, if_pos rfl, segment.1]
        rfl
      · rw [first?, node?_changeNode, if_neg]
        exact fun same => distinct.1 (Option.some.inj same ▸ among)

/-- Following the list brings up the keys of the entries, however many steps are left over. -/
theorem keysFrom
    {spots : List (RecencySpot α)} :
    ∀ {before? : Option Nat} {steps : Nat}, table.Segment before? spots none →
      spots.length ≤ steps →
        table.keysFrom steps (first? spots none) = spots.map RecencySpot.key := by
  induction spots with
  | nil =>
      intro before? steps _ _
      cases steps <;> rfl
  | cons spot rest later =>
      intro before? steps segment enough
      cases steps with
      | zero => exact absurd enough (Nat.not_succ_le_zero _)
      | succ steps =>
          rw [first?, RecencyTable.keysFrom, segment.1, List.map_cons]
          exact congrArg (spot.key :: ·) (later segment.2 (Nat.le_of_succ_le_succ enough))

end Segment

/-! ## Joining parts -/

section

variable {spots : List (RecencySpot α)} {before? after? : Option Nat}

/-- Let a part at the head name another entry after it. -/
theorem linkNext_segment
    (segment : table.Segment none spots after?) (distinct : (spots.map RecencySpot.slot).Nodup)
    (head : table.head? = first? spots after?) (next? : Option Nat) :
    (table.linkNext (last? none spots) next?).Segment none spots next? ∧
      (table.linkNext (last? none spots) next?).head? = first? spots next? ∧
      (table.linkNext (last? none spots) next?).tail? = table.tail? ∧
      ∀ slot, ¬ Among slot spots → (table.linkNext (last? none spots) next?).node? (some slot) =
        table.node? (some slot) := by
  rcases spots with _ | ⟨spot, rest⟩
  · exact ⟨trivial, rfl, rfl, fun _ _ => rfl⟩
  · rcases @last?_among _ (spot :: rest) none (List.cons_ne_nil _ _) with ⟨last, isLast, among⟩
    have linked := segment.setNext next? distinct (List.cons_ne_nil _ _)
    rcases segment.isSome among with ⟨node, there⟩
    rw [isLast] at linked ⊢
    rw [linkNext, there]
    refine ⟨linked, head, rfl, fun slot apart => ?_⟩
    rw [node?_changeNode, if_neg]
    exact fun same => apart (Option.some.inj same ▸ among)

/-- Let a part at the tail name another entry before it. -/
theorem linkPrevious_segment
    (segment : table.Segment before? spots none) (distinct : (spots.map RecencySpot.slot).Nodup)
    (tail : table.tail? = last? before? spots) (previous? : Option Nat) :
    (table.linkPrevious (first? spots none) previous?).Segment previous? spots none ∧
      (table.linkPrevious (first? spots none) previous?).tail? = last? previous? spots ∧
      (table.linkPrevious (first? spots none) previous?).head? = table.head? ∧
      ∀ slot, ¬ Among slot spots →
        (table.linkPrevious (first? spots none) previous?).node? (some slot) =
          table.node? (some slot) := by
  rcases spots with _ | ⟨spot, rest⟩
  · exact ⟨trivial, rfl, rfl, fun _ _ => rfl⟩
  · have among : Among spot.slot (spot :: rest) := List.mem_cons_self
    have linked := segment.setPrevious distinct (List.cons_ne_nil _ _) previous?
    rw [first?] at linked ⊢
    rw [linkPrevious, segment.1]
    refine ⟨linked, tail, rfl, fun slot apart => ?_⟩
    rw [node?_changeNode, if_neg]
    exact fun same => apart (Option.some.inj same ▸ among)

end

/-! ## The whole list -/

/-- Read from the head on, the entries are these. -/
structure Threads (table : RecencyTable α) (spots : List (RecencySpot α)) : Prop where
  linked : table.Segment none spots none
  head : table.head? = first? spots none
  tail : table.tail? = last? none spots
  distinct : (spots.map RecencySpot.slot).Nodup

namespace Threads

variable {spots front back : List (RecencySpot α)} {spot : RecencySpot α}

/-- Only the ends of the list and the slots of its entries matter. -/
theorem congr
    (threads : table.Threads spots) (head : other.head? = table.head?)
    (tail : other.tail? = table.tail?)
    (same : ∀ slot, Among slot spots → other.node? (some slot) = table.node? (some slot)) :
    other.Threads spots :=
  ⟨threads.linked.congr same, head.trans threads.head, tail.trans threads.tail, threads.distinct⟩

/-- An entry is taken out of the list, and stays in its slot. -/
theorem unlink (threads : table.Threads (front ++ spot :: back)) :
    (table.unlink spot.slot).Threads (front ++ back) ∧
      ¬ Among spot.slot (front ++ back) := by
  have distinct := threads.distinct
  rw [List.map_append, List.map_cons, List.nodup_middle, ← List.map_append] at distinct
  rcases List.nodup_cons.mp distinct with ⟨apart, distinct'⟩
  have parts := distinct'
  rw [List.map_append, List.nodup_append] at parts
  rcases parts with ⟨frontDistinct, backDistinct, disjoint⟩
  rcases Segment.append.mp threads.linked with ⟨linkedFront, there, linkedBack⟩
  have head := threads.head
  have tail := threads.tail
  rw [first?_append] at head
  rw [last?_append] at tail
  rcases linkNext_segment linkedFront frontDistinct head (first? back none) with
    ⟨linkedFront', head', tail', kept⟩
  have linkedBack' := linkedBack.congr fun slot among =>
    kept slot fun among' => disjoint slot among' slot among rfl
  rcases linkPrevious_segment linkedBack' backDistinct (tail'.trans tail) (last? none front) with
    ⟨linkedBack'', tail'', head'', kept'⟩
  have linkedFront'' := linkedFront'.congr fun slot among =>
    kept' slot fun among' => disjoint slot among slot among' rfl
  refine ⟨?_, apart⟩
  rw [RecencyTable.unlink, there]
  refine ⟨Segment.append.mpr ⟨linkedFront'', linkedBack''⟩, ?_, ?_, distinct'⟩
  · rw [first?_append]
    exact head''.trans head'
  · rw [last?_append]
    exact tail''

/-- An entry that is not in the list is put in front. -/
theorem pushFront
    (threads : table.Threads spots) (apart : ¬ Among spot.slot spots)
    (there : table.pair? (some spot.slot) = some (spot.key, spot.value)) :
    (table.pushFront spot.slot).Threads (spot :: spots) := by
  rcases spot with ⟨slot, key, value⟩
  rcases Option.map_eq_some_iff.mp there with ⟨node, held, entry⟩
  rcases Prod.mk.inj entry with ⟨rfl, rfl⟩
  rw [RecencyTable.pushFront]
  generalize made : (table.changeNode (some slot) fun node =>
    { node with previous? := none, next? := table.head? }) = fresh
  have placed : fresh.node? (some slot) = some ⟨node.key, node.value, none, table.head?⟩ := by
    rw [← made, node?_changeNode, if_pos rfl, held]
    rfl
  have linked : fresh.Segment none spots none := by
    refine threads.linked.congr fun other among => ?_
    rw [← made, node?_changeNode, if_neg]
    exact fun same => apart (Option.some.inj same ▸ among)
  have tail : fresh.tail? = last? none spots := by
    rw [← made]
    exact threads.tail
  rcases linkPrevious_segment linked threads.distinct tail (some slot) with
    ⟨linked', tail', _, kept⟩
  rw [threads.head] at placed ⊢
  refine ⟨⟨(kept slot apart).trans placed, linked'.congr fun _ _ => rfl⟩, rfl, tail', ?_⟩
  exact List.nodup_cons.mpr ⟨apart, threads.distinct⟩

/-- An entry gets another value. -/
theorem replaceValue (threads : table.Threads (front ++ spot :: back)) (value : α) :
    (table.changeNode (some spot.slot) fun node => { node with value }).Threads
      (front ++ { spot with value } :: back) := by
  have distinct := threads.distinct
  rw [List.map_append, List.map_cons, List.nodup_middle, ← List.map_append] at distinct
  rcases List.nodup_cons.mp distinct with ⟨apart, _⟩
  have others : ∀ slot, Among slot (front ++ back) →
      (table.changeNode (some spot.slot) fun node => { node with value }).node? (some slot) =
        table.node? (some slot) := by
    intro slot among
    rw [node?_changeNode, if_neg]
    exact fun same => apart (Option.some.inj same ▸ among)
  rcases Segment.append.mp threads.linked with ⟨linkedFront, there, linkedBack⟩
  have head := threads.head
  have tail := threads.tail
  rw [first?_append] at head
  rw [last?_append] at tail
  refine ⟨Segment.append.mpr ⟨linkedFront.congr fun slot among => others slot ?_, ?_,
    linkedBack.congr fun slot among => others slot ?_⟩, ?_, ?_, ?_⟩
  · rw [Among, List.map_append]
    exact List.mem_append_left _ among
  · rw [node?_changeNode, if_pos rfl, there]
    rfl
  · rw [Among, List.map_append]
    exact List.mem_append_right _ among
  · rw [first?_append]
    exact head
  · rw [last?_append]
    exact tail
  · have same := threads.distinct
    rw [List.map_append] at same ⊢
    exact same

/-- An entry is moved to the front. -/
theorem promote (threads : table.Threads (front ++ spot :: back)) :
    (table.promote spot.slot).Threads (spot :: (front ++ back)) := by
  rw [RecencyTable.promote]
  split
  case isTrue isFirst =>
    rcases front with _ | ⟨first, front⟩
    · exact threads
    · have same : first.slot = spot.slot := Option.some.inj (threads.head.symm.trans isFirst)
      refine absurd ?_ (List.nodup_cons.mp threads.distinct).1
      rw [same]
      exact List.mem_map_of_mem (List.mem_append_right _ List.mem_cons_self)
  case isFalse =>
    rcases threads.unlink with ⟨threads', apart⟩
    refine threads'.pushFront apart ?_
    rw [(Relinks.unlink table spot.slot).pair?]
    exact threads.linked.pair? (List.mem_append_right _ List.mem_cons_self)

end Threads

end RecencyTable

end PacketFilter
