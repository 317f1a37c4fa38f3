import Mathlib.Algebra.GroupWithZero.Nat
import Mathlib.Data.List.Nodup
import Mathlib.Logic.Relation
import PacketFilter.Proofs.WellFormedCode

/-!
# Reachable slots

The search for back edges visits exactly the slots to which control can pass
from the first one.  Every step keeps an invariant of the search path and of
the slots left behind, and takes off the work that remains; the allowance of
the search is enough for all of it.
-/

namespace PacketFilter

/-! ## Edges -/

namespace Code

variable {code : Code} {slot target : Nat}

/-- Control can pass from one slot to the other. -/
def Edge (code : Code) (slot target : Nat) : Prop :=
  target ∈ code.successors slot

/-- A slot leads on to the one a distance behind it just when that lies inside the code. -/
theorem mem_after?_iff {distance : Nat} :
    target ∈ (code.after? slot distance).toList ↔
      target = slot + distance ∧ slot + distance < code.size := by
  rw [after?, Option.mem_toList]
  split
  case isTrue inside =>
    exact ⟨fun same => ⟨(Option.some.inj same).symm, inside⟩, fun same => same.1 ▸ rfl⟩
  case isFalse outside =>
    exact iff_of_false (fun absurdity => by cases absurdity) fun same => outside same.2

/-- A jump leads inside the code. -/
theorem lt_of_jumpTarget?
    {instruction : Instruction} {length : Nat}
    (leads : instruction.jumpTarget? slot length = some target) :
    target < length := by
  unfold Instruction.jumpTarget? at leads
  dsimp only at leads
  split at leads
  case isTrue inside =>
    cases leads
    omega
  case isFalse => cases leads

/-- A slot has no more than two successors, and all of them are in the program. -/
theorem successors_bounded (slot : Nat) :
    (code.successors slot).length ≤ 2 ∧ ∀ target ∈ code.successors slot, target < code.size := by
  have straight (distance : Nat) :
      (code.after? slot distance).toList.length ≤ 1 ∧
        ∀ target ∈ (code.after? slot distance).toList, target < code.size := by
    refine ⟨Option.length_toList_le, fun target listed => ?_⟩
    rcases mem_after?_iff.mp listed with ⟨rfl, inside⟩
    exact inside
  have jumping (instruction : Instruction) :
      (instruction.jumpTarget? slot code.size).toList.length ≤ 1 ∧
        ∀ target ∈ (instruction.jumpTarget? slot code.size).toList, target < code.size :=
    ⟨Option.length_toList_le, fun target listed => lt_of_jumpTarget? (Option.mem_toList.mp listed)⟩
  have ending : ([] : List Nat).length ≤ 2 ∧ ∀ target ∈ ([] : List Nat), target < code.size :=
    ⟨Nat.zero_le 2, fun target listed => by cases listed⟩
  unfold successors
  split
  case h_1 => exact ending
  case h_2 instruction _ =>
    split
    case isTrue => exact ⟨Nat.le_succ_of_le (straight 2).1, (straight 2).2⟩
    case isFalse =>
      split
      case isTrue => exact ending
      case isFalse =>
        split
        case isTrue => exact ⟨Nat.le_succ_of_le (jumping instruction).1, (jumping instruction).2⟩
        case isFalse =>
          split
          case isTrue =>
            constructor
            · rw [List.length_append]
              exact Nat.add_le_add (straight 1).1
                (Nat.le_trans (List.length_filter_le _ _) (jumping instruction).1)
            · intro target listed
              rcases List.mem_append.mp listed with next | jumped
              · exact (straight 1).2 target next
              · exact (jumping instruction).2 target (List.mem_filter.mp jumped).1
          case isFalse => exact ⟨Nat.le_succ_of_le (straight 1).1, (straight 1).2⟩

end Code

/-! ## The search -/

namespace Search

variable {code : Code} {search next : Search} {slot : Nat}

/-- The slots that the search has come to. -/
def visited (search : Search) : List Nat :=
  search.path.map Prod.fst ++ search.finished

/-- What a step of the search does to its path and to the slots it has left. -/
inductive Advances (code : Code) : Search → Search → Prop
  | leaves (slot : Nat) (outer : List (Nat × List Nat)) (finished : List Nat)
      (edges : List (Nat × Nat)) :
      Advances code ⟨(slot, []) :: outer, finished, edges⟩ ⟨outer, slot :: finished, edges⟩
  | skips {slot target : Nat} {rest : List Nat} {outer : List (Nat × List Nat)}
      {finished : List Nat} {edges edges' : List (Nat × Nat)}
      (known : target ∈ visited ⟨(slot, target :: rest) :: outer, finished, edges⟩) :
      Advances code ⟨(slot, target :: rest) :: outer, finished, edges⟩
        ⟨(slot, rest) :: outer, finished, edges'⟩
  | enters {slot target : Nat} {rest : List Nat} {outer : List (Nat × List Nat)}
      {finished : List Nat} {edges : List (Nat × Nat)}
      (fresh : target ∉ visited ⟨(slot, target :: rest) :: outer, finished, edges⟩) :
      Advances code ⟨(slot, target :: rest) :: outer, finished, edges⟩
        ⟨(target, code.successors target) :: (slot, rest) :: outer, finished, edges⟩

/-- A slot is on the path just when the path has a frame for it. -/
theorem isOnPath_iff : search.isOnPath slot = true ↔ slot ∈ search.path.map Prod.fst := by
  rw [isOnPath, List.any_eq_true, List.mem_map]
  simp only [beq_iff_eq]

/-- What a step of the search does, edges that are noted included. -/
inductive Moves (code : Code) : Search → Search → Prop
  | leaves (slot : Nat) (outer : List (Nat × List Nat)) (finished : List Nat)
      (edges : List (Nat × Nat)) :
      Moves code ⟨(slot, []) :: outer, finished, edges⟩ ⟨outer, slot :: finished, edges⟩
  | closes {slot target : Nat} {rest : List Nat} {outer : List (Nat × List Nat)}
      {finished : List Nat} {edges : List (Nat × Nat)}
      (onPath : target ∈ ((slot, target :: rest) :: outer).map Prod.fst) :
      Moves code ⟨(slot, target :: rest) :: outer, finished, edges⟩
        ⟨(slot, rest) :: outer, finished, (slot, target) :: edges⟩
  | passes {slot target : Nat} {rest : List Nat} {outer : List (Nat × List Nat)}
      {finished : List Nat} {edges : List (Nat × Nat)} (left : target ∈ finished) :
      Moves code ⟨(slot, target :: rest) :: outer, finished, edges⟩
        ⟨(slot, rest) :: outer, finished, edges⟩
  | enters {slot target : Nat} {rest : List Nat} {outer : List (Nat × List Nat)}
      {finished : List Nat} {edges : List (Nat × Nat)}
      (fresh : target ∉ visited ⟨(slot, target :: rest) :: outer, finished, edges⟩) :
      Moves code ⟨(slot, target :: rest) :: outer, finished, edges⟩
        ⟨(target, code.successors target) :: (slot, rest) :: outer, finished, edges⟩

/-- A step of the search leaves a slot, skips a known target or enters a fresh one. -/
theorem moves_of_step? (steps : search.step? code = some next) : Moves code search next := by
  rcases search with ⟨path, finished, edges⟩
  unfold step? at steps
  split at steps
  case h_1 => cases steps
  case h_2 slot outer same =>
    cases steps
    cases same
    exact .leaves slot outer finished edges
  case h_3 slot target rest outer same =>
    cases same
    split at steps
    case isTrue onPath =>
      cases steps
      exact .closes (isOnPath_iff.mp onPath)
    case isFalse offPath =>
      split at steps
      case isTrue left =>
        cases steps
        exact .passes (List.contains_iff_mem.mp left)
      case isFalse unknown =>
        cases steps
        refine .enters fun known => ?_
        rcases List.mem_append.mp known with onPath | left
        · exact offPath (isOnPath_iff.mpr onPath)
        · exact unknown (List.contains_iff_mem.mpr left)

theorem Moves.advances (moves : Moves code search next) : Advances code search next := by
  cases moves with
  | leaves slot outer finished edges => exact .leaves slot outer finished edges
  | closes onPath => exact .skips (List.mem_append_left _ onPath)
  | passes left => exact .skips (List.mem_append_right _ left)
  | enters fresh => exact .enters fresh

theorem advances_of_step? (steps : search.step? code = some next) :
    Advances code search next :=
  (moves_of_step? steps).advances

theorem path_of_step?_eq_none (ended : search.step? code = none) : search.path = [] := by
  unfold step? at ended
  split at ended
  case h_1 empty => exact empty
  case h_2 => cases ended
  case h_3 =>
    split at ended
    case isTrue => cases ended
    case isFalse => split at ended <;> cases ended

/-- What the search keeps: it visits no slot twice, visits only slots that control can reach from
the first one, and has visited every successor that no entry of its path still has to look at. -/
structure Sound (code : Code) (search : Search) : Prop where
  apart : search.visited.Nodup
  inside : ∀ slot ∈ search.visited, slot < code.size
  rooted : ∀ slot ∈ search.visited, Relation.ReflTransGen code.Edge 0 slot
  entered : 0 ∈ search.visited
  closed : ∀ slot ∈ search.finished, ∀ target, code.Edge slot target → target ∈ search.visited
  waiting : ∀ entry ∈ search.path, ∀ target ∈ entry.2, code.Edge entry.1 target
  looked : ∀ entry ∈ search.path, ∀ target, code.Edge entry.1 target →
    target ∈ entry.2 ∨ target ∈ search.visited

/-- The search starts soundly at the first slot. -/
theorem Sound.start (nonempty : 0 < code.size) : Sound code (start code) where
  apart := List.nodup_singleton 0
  inside := by
    intro slot listed
    cases List.mem_singleton.mp listed
    exact nonempty
  rooted := by
    intro slot listed
    cases List.mem_singleton.mp listed
    exact .refl
  entered := List.mem_singleton_self 0
  closed := by
    intro slot listed
    cases listed
  waiting := by
    intro entry listed target waits
    cases List.mem_singleton.mp listed
    exact waits
  looked := by
    intro entry listed target edge
    cases List.mem_singleton.mp listed
    exact .inl edge

section

variable {slot target : Nat} {rest finished : List Nat} {outer : List (Nat × List Nat)}
variable {edges edges' : List (Nat × Nat)}

/-- Leaving a slot that has no target left keeps the search sound. -/
theorem Sound.leave (sound : Sound code ⟨(slot, []) :: outer, finished, edges⟩) :
    Sound code ⟨outer, slot :: finished, edges⟩ := by
  have same : ∀ place, place ∈ visited ⟨outer, slot :: finished, edges⟩ ↔
      place ∈ visited ⟨(slot, []) :: outer, finished, edges⟩ := by
    intro place
    simp only [visited, List.map_cons, List.mem_append, List.mem_cons]
    tauto
  refine ⟨?_, fun place listed => sound.inside place ((same place).mp listed),
    fun place listed => sound.rooted place ((same place).mp listed), (same 0).mpr sound.entered,
    ?_, fun entry listed => sound.waiting entry (List.mem_cons_of_mem _ listed), ?_⟩
  · exact List.nodup_middle.mpr sound.apart
  · intro place listed target edge
    rw [same]
    rcases List.mem_cons.mp listed with rfl | listed
    · rcases sound.looked _ List.mem_cons_self target edge with absurdity | known
      · cases absurdity
      · exact known
    · exact sound.closed place listed target edge
  · intro entry listed target edge
    rw [same]
    exact sound.looked entry (List.mem_cons_of_mem _ listed) target edge

/-- Skipping a target that is known keeps the search sound. -/
theorem Sound.skip
    (sound : Sound code ⟨(slot, target :: rest) :: outer, finished, edges⟩)
    (known : target ∈ visited ⟨(slot, target :: rest) :: outer, finished, edges⟩) :
    Sound code ⟨(slot, rest) :: outer, finished, edges'⟩ := by
  refine ⟨sound.apart, sound.inside, sound.rooted, sound.entered, sound.closed, ?_, ?_⟩
  · intro entry listed place waits
    rcases List.mem_cons.mp listed with rfl | listed
    · exact sound.waiting _ List.mem_cons_self place (List.mem_cons_of_mem _ waits)
    · exact sound.waiting entry (List.mem_cons_of_mem _ listed) place waits
  · intro entry listed place edge
    rcases List.mem_cons.mp listed with rfl | listed
    · rcases sound.looked _ List.mem_cons_self place edge with waits | visited
      · rcases List.mem_cons.mp waits with rfl | waits
        · exact .inr known
        · exact .inl waits
      · exact .inr visited
    · exact sound.looked entry (List.mem_cons_of_mem _ listed) place edge

/-- Entering a fresh target keeps the search sound. -/
theorem Sound.enter
    (sound : Sound code ⟨(slot, target :: rest) :: outer, finished, edges⟩)
    (fresh : target ∉ visited ⟨(slot, target :: rest) :: outer, finished, edges⟩) :
    Sound code ⟨(target, code.successors target) :: (slot, rest) :: outer, finished, edges⟩ := by
  have edge : code.Edge slot target := sound.waiting _ List.mem_cons_self target List.mem_cons_self
  have grown : ∀ place, place ∈ visited ⟨(slot, target :: rest) :: outer, finished, edges⟩ →
      place ∈ visited
        ⟨(target, code.successors target) :: (slot, rest) :: outer, finished, edges⟩ :=
    fun place listed => List.mem_cons_of_mem _ listed
  refine ⟨List.nodup_cons.mpr ⟨fresh, sound.apart⟩, ?_, ?_, grown 0 sound.entered, ?_, ?_, ?_⟩
  · intro place listed
    rcases List.mem_cons.mp listed with rfl | listed
    · exact (Code.successors_bounded slot).2 _ edge
    · exact sound.inside place listed
  · intro place listed
    rcases List.mem_cons.mp listed with rfl | listed
    · exact (sound.rooted slot List.mem_cons_self).tail edge
    · exact sound.rooted place listed
  · intro place listed onward leads
    exact grown onward (sound.closed place listed onward leads)
  · intro entry listed place waits
    rcases List.mem_cons.mp listed with rfl | listed
    · exact waits
    · rcases List.mem_cons.mp listed with rfl | listed
      · exact sound.waiting _ List.mem_cons_self place (List.mem_cons_of_mem _ waits)
      · exact sound.waiting entry (List.mem_cons_of_mem _ listed) place waits
  · intro entry listed place leads
    rcases List.mem_cons.mp listed with rfl | listed
    · exact .inl leads
    · rcases List.mem_cons.mp listed with rfl | listed
      · rcases sound.looked _ List.mem_cons_self place leads with waits | visited
        · rcases List.mem_cons.mp waits with rfl | waits
          · exact .inr List.mem_cons_self
          · exact .inl waits
        · exact .inr (grown place visited)
      · exact (sound.looked entry (List.mem_cons_of_mem _ listed) place leads).imp_right
          (grown place)

end

theorem Sound.advance (sound : Sound code search) (advances : Advances code search next) :
    Sound code next := by
  cases advances with
  | leaves => exact sound.leave
  | skips known => exact sound.skip known
  | enters fresh => exact sound.enter fresh

/-- How many steps the search can still take: three for every slot it has not come to, one for every
entry of its path and one for every successor that the entry has to look at. -/
def work (code : Code) (search : Search) : Nat :=
  3 * (code.size - search.visited.length) +
    (search.path.map fun entry => 1 + entry.2.length).sum

/-- A sound search has visited no more slots than the code has. -/
theorem Sound.length_visited_le (sound : Sound code search) :
    search.visited.length ≤ code.size := by
  have short : search.visited ⊆ List.range code.size :=
    fun slot listed => List.mem_range.mpr (sound.inside slot listed)
  have bounded := sound.apart.length_le_of_subset short
  rwa [List.length_range] at bounded

/-- Each move leaves less work to do. -/
theorem Sound.work_lt (sound : Sound code search) (advances : Advances code search next) :
    next.work code < search.work code := by
  have room := (sound.advance advances).length_visited_le
  cases advances with
  | leaves slot outer finished edges =>
      simp only [work, visited, List.map_cons, List.sum_cons, List.length_append, List.length_cons,
        List.length_nil]
      omega
  | skips known =>
      simp only [work, visited, List.map_cons, List.sum_cons, List.length_append, List.length_cons]
      omega
  | @enters slot target =>
      have branching := (@Code.successors_bounded code target).1
      simp only [work, visited, List.map_cons, List.sum_cons, List.length_append,
        List.length_cons] at room ⊢
      omega

/-- With an allowance for the work that remains, the search goes on until its path is empty. -/
theorem Sound.run_finishes (sound : Sound code search) {allowance : Nat}
    (enough : search.work code ≤ allowance) :
    Sound code (search.run code allowance) ∧ (search.run code allowance).path = [] := by
  induction allowance generalizing search with
  | zero =>
      refine ⟨sound, ?_⟩
      cases steps : search.step? code with
      | none => exact path_of_step?_eq_none steps
      | some next => exact absurd (sound.work_lt (advances_of_step? steps)) (by omega)
  | succ allowance continues =>
      unfold run
      cases steps : search.step? code with
      | none => exact ⟨sound, path_of_step?_eq_none steps⟩
      | some next =>
          have less := sound.work_lt (advances_of_step? steps)
          exact continues (sound.advance (advances_of_step? steps)) (by omega)

theorem ofCode_eq (nonempty : 0 < code.size) :
    ofCode code = (start code).run code (4 * code.size + 1) := by
  have filled : ¬ code.isEmpty := by
    rw [Array.isEmpty_iff_size_eq_zero]
    exact Nat.ne_of_gt nonempty
  rw [ofCode, if_neg filled]

/-- The search of a whole program comes to its end. -/
theorem ofCode_finishes (nonempty : 0 < code.size) :
    Sound code (ofCode code) ∧ (ofCode code).path = [] := by
  have enough : (start code).work code ≤ 4 * code.size + 1 := by
    have branching := (@Code.successors_bounded code 0).1
    simp only [work, visited, start, List.map_cons, List.map_nil, List.sum_cons, List.sum_nil,
      List.length_append, List.length_cons, List.length_nil]
    omega
  rw [ofCode_eq nonempty]
  exact (Sound.start nonempty).run_finishes enough

/-- The search of a whole program leaves exactly the slots that control can reach. -/
theorem mem_finished_ofCode_iff (nonempty : 0 < code.size) :
    slot ∈ (ofCode code).finished ↔ Relation.ReflTransGen code.Edge 0 slot := by
  rcases ofCode_finishes nonempty with ⟨sound, ended⟩
  have left : (ofCode code).visited = (ofCode code).finished := by
    rw [visited, ended]
    rfl
  constructor
  · intro listed
    rw [← left] at listed
    exact sound.rooted slot listed
  · intro reached
    induction reached with
    | refl => exact left ▸ sound.entered
    | tail _ edge listed => exact left ▸ sound.closed _ listed _ edge

end Search

/-- The reachable slots of a graph are those to which control can pass from the first one. -/
theorem Graph.mem_reachable_iff {code : Code} {slot : Nat} (nonempty : 0 < code.size) :
    slot ∈ (Graph.ofCode code).reachable ↔ Relation.ReflTransGen code.Edge 0 slot := by
  rw [← Search.mem_finished_ofCode_iff nonempty]
  have listed := @marks_iff slot code.size (Search.ofCode code).finished
  constructor
  · intro reached
    exact (listed.mp (List.mem_filter.mp reached).2).1
  · intro left
    have inside : slot < code.size := by
      have reached := (Search.mem_finished_ofCode_iff nonempty).mp left
      cases reached with
      | refl => exact nonempty
      | tail _ edge => exact (Code.successors_bounded _).2 _ edge
    exact List.mem_filter.mpr ⟨List.mem_range.mpr inside, listed.mpr ⟨left, inside⟩⟩

end PacketFilter
