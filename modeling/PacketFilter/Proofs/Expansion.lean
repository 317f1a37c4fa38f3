import PacketFilter.Proofs.Stepping
import PacketFilter.Verifier.Basic

/-!
# Where a place leads

What an iteration of the walk comes to at a place depends on nothing but the
place and the last identity handed out: either the program is turned away
there, or the places that it leads to are put in front of those that wait.
-/

namespace PacketFilter

/-- A position and what is known there. -/
abbrev Place := Nat × AbstractState

/-- Where a path put aside is to be taken up. -/
def PendingPath.place (path : PendingPath) : Place :=
  (path.position, path.state)

namespace Journey

/-- Both edges of a branch may be followed; the one that falls through is looked at first. -/
def checkEdges (journey : Journey) (position target : Nat) (taken? fall? : Option AbstractState) :
    Checked Unit :=
  match taken?, fall? with
  | some taken, some fall => do
    journey.checkEdge position (position + 1) fall
    journey.checkEdge position target taken
  | some taken, none => journey.checkEdge position target taken
  | none, some fall => journey.checkEdge position (position + 1) fall
  | none, none => .ok ()

/-- Every edge that the course takes may be followed. -/
def checkCourse (journey : Journey) (instruction : Instruction) (position : Nat)
    (state : AbstractState) (course : Course) : Checked Unit :=
  match course, instruction.jumpTarget? position journey.code.size with
  | .next, _ => journey.checkEdge position (position + instruction.span) state
  | .exit, _ => .ok ()
  | .jump, some target => journey.checkEdge position target state
  | .branch taken? fall?, some target => journey.checkEdges position target taken? fall?
  | .jump, none | .branch _ _, none => .error (.jumpOutOfRange instruction.offset.toInt)

/-- What is known after the instruction at a position, and the places that it leads to. -/
def expand (journey : Journey) (focus : Focus) (position : Nat) : Checked (Focus × List Place) :=
  match journey.code[position]? with
  | none => .error .leftProgram
  | some instruction =>
    match journey.code.operation? position with
    | none => .error (.undecodable instruction.code)
    | some operation => do
      let made ← transfer journey.setting focus operation
      journey.checkCourse instruction position made.1.state made.2
      return (made.1, made.2.leads made.1.state instruction position journey.code.size)

end Journey

namespace Walk

/-- Where the walk is. -/
def place (walk : Walk) : Place :=
  (walk.position, walk.focus.state)

/-- The places put aside. -/
def aside (walk : Walk) : List Place :=
  walk.pending.map PendingPath.place

/-- The states kept for a position. -/
def seenAt (walk : Walk) (position : Nat) : List AbstractState :=
  walk.explored[position]?.getD []

/-- The path ends here, at a state like one seen before. -/
def isPruned (journey : Journey) (walk : Walk) : Bool :=
  journey.isBlockStart walk.position && walk.hasSeen

/-- The states kept after an iteration that does not end the path. -/
def exploredAfter (journey : Journey) (walk : Walk) : Array (List AbstractState) :=
  if journey.isBlockStart walk.position then (walk.remember journey).explored else walk.explored

/-- What an iteration comes to, given the last identity and the places that are left after it, or
the cause found at a position. -/
inductive Meets (position : Nat) (explored : Array (List AbstractState)) :
    Checked (Nat × List Place) → Progress → Prop
  | rejected (cause : RejectionCause) (log : Log) :
      Meets position explored (.error cause) (.rejected log (.atSlot position cause))
  | finished (last : Nat) (final : Walk) :
      Meets position explored (.ok (last, [])) (.finished final)
  | continue {last : Nat} {places : List Place} (next : Walk)
      (opens : next.place :: next.aside = places) (handed : next.focus.lastIdentity = last)
      (same : next.explored = explored) :
      Meets position explored (.ok (last, places)) (.continue next)

variable {journey : Journey} {walk : Walk}

/-- Taking up a path goes on at its place, or finishes where there is none. -/
theorem takePending_meets (walk : Walk) (position : Nat) :
    Meets position walk.explored (.ok (walk.focus.lastIdentity, walk.aside)) walk.takePending := by
  rw [takePending, aside]
  cases walk.pending with
  | nil => exact .finished _ walk
  | cons path rest => exact .continue _ rfl rfl rfl

theorem prune_meets (walk : Walk) :
    Meets walk.position walk.explored (.ok (walk.focus.lastIdentity, walk.aside)) walk.prune :=
  takePending_meets
    { walk with
      log := walk.log.addPruned walk.position
      statistics := { walk.statistics with pruned := walk.statistics.pruned + 1 } }
    walk.position

theorem advance_meets (journey : Journey) (walk : Walk) (target : Nat) :
    Meets walk.position walk.explored
      (journey.checkEdge walk.position target walk.focus.state >>= fun _ =>
        .ok (walk.focus.lastIdentity, (target, walk.focus.state) :: walk.aside))
      (walk.advance journey target) := by
  rw [advance]
  cases journey.checkEdge walk.position target walk.focus.state with
  | error cause => exact .rejected cause walk.log
  | ok _ => exact .continue _ rfl rfl rfl

/-- A branch goes on along one edge and puts the other aside. -/
theorem followBranch_meets
    (journey : Journey) (walk : Walk) (target : Nat) (taken? fall? : Option AbstractState) :
    Meets walk.position walk.explored
      (journey.checkEdges walk.position target taken? fall? >>= fun _ =>
        .ok (walk.focus.lastIdentity,
          (taken?.map fun taken => (target, taken)).toList ++
            (fall?.map fun fall => (walk.position + 1, fall)).toList ++ walk.aside))
      (walk.followBranch journey target taken? fall?) := by
  unfold followBranch
  cases taken? with
  | none =>
      cases fall? with
      | none => exact takePending_meets walk walk.position
      | some fall =>
          exact advance_meets journey (withState { walk with
            log := walk.log.addBranch walk.position "never taken" (walk.position + 1) } fall)
            (walk.position + 1)
  | some taken =>
      cases fall? with
      | none =>
          exact advance_meets journey (withState { walk with
            log := walk.log.addBranch walk.position "always taken" target } taken) target
      | some fall =>
          dsimp only [Journey.checkEdges]
          cases journey.checkEdge walk.position (walk.position + 1) fall with
          | error cause => exact .rejected _ _
          | ok _ =>
              exact advance_meets journey (withState (putAside { walk with
                log := walk.log.addBranch walk.position "unknown" target } fall
                  (walk.position + 1)) taken) target

/-- Following a course leads to its places, if their edges pass. -/
theorem follow_meets
    (journey : Journey) (walk : Walk) (instruction : Instruction) (course : Course) :
    Meets walk.position walk.explored
      (journey.checkCourse instruction walk.position walk.focus.state course >>= fun _ =>
        .ok (walk.focus.lastIdentity,
          course.leads walk.focus.state instruction walk.position journey.code.size ++ walk.aside))
      (walk.follow journey instruction course) := by
  unfold follow Journey.checkCourse Course.leads
  cases course with
  | next => exact advance_meets journey walk _
  | exit => exact takePending_meets walk walk.position
  | jump =>
      cases instruction.jumpTarget? walk.position journey.code.size with
      | none => exact .rejected _ _
      | some target => exact advance_meets journey walk target
  | branch taken? fall? =>
      cases instruction.jumpTarget? walk.position journey.code.size with
      | none => exact .rejected _ _
      | some target => exact followBranch_meets journey walk target taken? fall?

/-- Noting a call changes the log alone. -/
theorem noteCall_eq (journey : Journey) (walk : Walk) (operation : Operation) :
    ∃ log, walk.noteCall journey operation = { walk with log } := by
  unfold noteCall
  split
  · split
    · exact ⟨_, rfl⟩
    · exact ⟨walk.log, rfl⟩
  · exact ⟨walk.log, rfl⟩

/-- An instruction is turned away, or leads where its place does. -/
theorem visit_meets (journey : Journey) (walk : Walk) :
    Meets walk.position walk.explored
      (journey.expand walk.focus walk.position >>= fun made =>
        .ok (made.1.lastIdentity, made.2 ++ walk.aside))
      (walk.visit journey) := by
  unfold visit Journey.expand
  cases journey.code[walk.position]? with
  | none => exact .rejected _ _
  | some instruction =>
      dsimp only
      cases journey.code.operation? walk.position with
      | none => exact .rejected _ _
      | some operation =>
          rcases noteCall_eq journey
            { walk with log := walk.log.addInstruction journey.code walk.position walk.focus.state }
            operation with ⟨log, noted⟩
          simp only [noted]
          cases transfer journey.setting walk.focus operation with
          | error cause => exact .rejected _ _
          | ok made =>
              have follows := follow_meets journey { walk with focus := made.1, log } instruction
                made.2
              dsimp only [bind, Except.bind] at follows ⊢
              cases checked : journey.checkCourse instruction walk.position made.1.state made.2 with
              | error cause =>
                  rw [checked] at follows
                  exact follows
              | ok _ =>
                  rw [checked] at follows
                  exact follows

/-- Keeping a state changes nothing else that matters, and does not depend on the counts. -/
theorem remember_eq (journey : Journey) (walk : Walk) :
    ∃ statistics, walk.count.remember journey =
      { walk.count with explored := (walk.remember journey).explored, statistics } := by
  unfold remember
  by_cases room : (walk.explored[walk.position]?.getD []).length < journey.limits.states
  · have room' : (walk.count.explored[walk.count.position]?.getD []).length <
        journey.limits.states := room
    exact ⟨_, by rw [if_pos room, if_pos room']; rfl⟩
  · have full : ¬ (walk.count.explored[walk.count.position]?.getD []).length <
        journey.limits.states := room
    exact ⟨_, by rw [if_neg room, if_neg full]; rfl⟩

/-- The states kept are those kept before and, it may be, the current one. -/
theorem mem_exploredAfter
    {position : Nat} {state : AbstractState}
    (kept : state ∈ (walk.exploredAfter journey)[position]?.getD []) :
    state ∈ walk.seenAt position ∨ (position, state) = walk.place := by
  unfold exploredAfter remember at kept
  dsimp only at kept
  split at kept
  case isTrue =>
    split at kept
    case isTrue =>
      rw [Array.getElem?_setIfInBounds] at kept
      split at kept
      case isTrue same =>
        subst same
        split at kept
        case isTrue =>
          rcases List.mem_cons.mp kept with current | before
          · exact .inr (by rw [current, place])
          · exact .inl before
        case isFalse => cases kept
      case isFalse => exact .inl kept
    case isFalse => exact .inl kept
  case isFalse => exact .inl kept

/-- An iteration ends the path, or visits the place. -/
theorem step_meets (journey : Journey) (walk : Walk) :
    (walk.isPruned journey = true ∧
      Meets walk.position walk.explored (.ok (walk.focus.lastIdentity, walk.aside))
        (walk.step journey)) ∨
    (walk.isPruned journey = false ∧
      Meets walk.position (walk.exploredAfter journey)
        (journey.expand walk.focus walk.position >>= fun made =>
          .ok (made.1.lastIdentity, made.2 ++ walk.aside))
        (walk.step journey)) := by
  have hidden : walk.count.hasSeen = walk.hasSeen := rfl
  have start : journey.isBlockStart walk.count.position = journey.isBlockStart walk.position := rfl
  rw [step, isPruned, exploredAfter, hidden, start]
  cases journey.isBlockStart walk.position with
  | false => exact .inr ⟨rfl, visit_meets journey walk.count⟩
  | true =>
      cases walk.hasSeen with
      | true => exact .inl ⟨rfl, prune_meets walk.count⟩
      | false =>
          rcases remember_eq journey walk with ⟨statistics, made⟩
          refine .inr ⟨rfl, ?_⟩
          rw [made]
          exact visit_meets journey { walk.count with
            explored := (walk.remember journey).explored, statistics }

end Walk

end PacketFilter
