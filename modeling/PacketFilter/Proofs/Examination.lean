import PacketFilter.Proofs.AlikeStates
import PacketFilter.Proofs.Exploration

/-!
# Single instructions on states alike

The check of an instruction, without the step to where it leads: it changes
what is known, may put a path aside, and tells where control goes.  Visiting a
place is this check followed by that step.

Identities that have been handed out on one path are renamed one to one in a
state alike.  The check hands out the same fresh ones on both sides, which
extends the renaming, and asks of the others only whether they are the same or
zero.  So it comes out alike for states alike: with the same refusal, or with
control going to the same place, states alike, and the same paths put aside
with states alike.
-/

namespace PacketFilter

/-- Where control goes once an instruction has been checked. -/
inductive Onward where
  | next
  | jump (target : Nat)
  | exit
  deriving DecidableEq, Repr

namespace Walk

/-! ## The check of one instruction -/

/-- The two feasible edges of a branch: the one that falls through is put aside. -/
def settleBranch (walk : Walk) (journey : Journey) (target : Nat)
    (taken? fall? : Option AbstractState) : Except (Log × Rejection) (Walk × Onward) :=
  let next := walk.position + 1
  match taken?, fall? with
  | some taken, some fall =>
    let walk := { walk with log := walk.log.addBranch walk.position "unknown" target }
    match journey.checkEdge walk.position next fall with
    | .error cause => .error (walk.log, .atSlot walk.position cause)
    | .ok () => .ok ((walk.putAside fall next).withState taken, .jump target)
  | some taken, none =>
    let walk := { walk with log := walk.log.addBranch walk.position "always taken" target }
    .ok (walk.withState taken, .jump target)
  | none, some fall =>
    let walk := { walk with log := walk.log.addBranch walk.position "never taken" next }
    .ok (walk.withState fall, .next)
  | none, none => .ok (walk, .exit)

/-- What the course of an instruction comes to. -/
def settle (walk : Walk) (journey : Journey) (instruction : Instruction) (course : Course) :
    Except (Log × Rejection) (Walk × Onward) :=
  match course, instruction.jumpTarget? walk.position journey.code.size with
  | .next, _ => .ok (walk, .next)
  | .exit, _ => .ok (walk, .exit)
  | .jump, some target => .ok (walk, .jump target)
  | .branch taken? fall?, some target => walk.settleBranch journey target taken? fall?
  | .jump, none | .branch _ _, none =>
    .error (walk.log, .atSlot walk.position (.jumpOutOfRange instruction.offset.toInt))

/-- Check the current instruction, which changes what is known and may put a path aside. -/
def examine (walk : Walk) (journey : Journey) (instruction : Instruction) :
    Except (Log × Rejection) (Walk × Onward) :=
  match journey.code.operation? walk.position with
  | none => .error (walk.log, .atSlot walk.position (.undecodable instruction.code))
  | some operation =>
    let walk := walk.noteCall journey operation
    match transfer journey.setting walk.focus operation with
    | .error cause => .error (walk.log, .atSlot walk.position cause)
    | .ok (focus, course) => { walk with focus }.settle journey instruction course

/-- Go where control goes, if the instruction has been let through. -/
def goOn (journey : Journey) (instruction : Instruction) :
    Except (Log × Rejection) (Walk × Onward) → Progress
  | .error (log, rejection) => .rejected log rejection
  | .ok (walk, .next) => walk.advance journey (walk.position + instruction.span)
  | .ok (walk, .jump target) => walk.advance journey target
  | .ok (walk, .exit) => walk.takePending

variable {journey : Journey} {instruction : Instruction}

theorem goOn_settleBranch
    (walk : Walk) (narrow : instruction.span = 1) (target : Nat)
    (taken? fall? : Option AbstractState) :
    goOn journey instruction (walk.settleBranch journey target taken? fall?) =
      walk.followBranch journey target taken? fall? := by
  unfold settleBranch followBranch
  cases taken? with
  | none =>
      cases fall? with
      | none => rfl
      | some fall =>
          dsimp only [goOn]
          rw [narrow]
          rfl
  | some taken =>
      cases fall? with
      | none => rfl
      | some fall =>
          dsimp only
          cases journey.checkEdge walk.position (walk.position + 1) fall <;> rfl

theorem goOn_settle
    (walk : Walk) (course : Course)
    (narrow : ∀ taken? fall?, course = .branch taken? fall? → instruction.span = 1) :
    goOn journey instruction (walk.settle journey instruction course) =
      walk.follow journey instruction course := by
  unfold settle follow
  cases course with
  | next => rfl
  | exit => rfl
  | jump => cases instruction.jumpTarget? walk.position journey.code.size <;> rfl
  | branch taken? fall? =>
      cases instruction.jumpTarget? walk.position journey.code.size with
      | none => rfl
      | some target => exact goOn_settleBranch walk (narrow taken? fall? rfl) target taken? fall?

/-- Only a branch goes where a branch goes. -/
theorem exists_branch_of_transfer
    {setting : Setting} {focus focus' : Focus} {operation : Operation}
    {taken? fall? : Option AbstractState}
    (passed : transfer setting focus operation = .ok (focus', .branch taken? fall?)) :
    ∃ width comparison left right, operation = .branch width comparison left right := by
  cases operation with
  | branch width comparison left right => exact ⟨width, comparison, left, right, rfl⟩
  | loadConstant | jump => cases passed
  | _ =>
      obtain ⟨_, _, made⟩ := Checked.bind_eq_ok.mp passed
      cases made

/-- The walk once the instruction that it is about to check has been written into the log. -/
def announce (walk : Walk) (journey : Journey) : Walk :=
  { walk with log := walk.log.addInstruction journey.code walk.position walk.focus.state }

/-- A visit checks the current instruction and goes where control goes. -/
theorem visit_eq_goOn
    (walk : Walk) (fetched : journey.code[walk.position]? = some instruction) :
    walk.visit journey =
      goOn journey instruction ((walk.announce journey).examine journey instruction) := by
  unfold visit examine announce
  rw [fetched]
  dsimp only
  cases decoded : journey.code.operation? walk.position with
  | none => rfl
  | some operation =>
      obtain ⟨log, noted⟩ := noteCall_eq journey
        { walk with log := walk.log.addInstruction journey.code walk.position walk.focus.state }
        operation
      simp only [noted]
      cases passed : transfer journey.setting walk.focus operation with
      | error cause => rfl
      | ok made =>
          obtain ⟨focus, course⟩ := made
          refine (goOn_settle _ course fun taken? fall? branches => ?_).symm
          subst branches
          obtain ⟨_, _, _, _, rfl⟩ := exists_branch_of_transfer passed
          rw [Code.operation?, fetched] at decoded
          exact Instruction.span_of_branch decoded

end Walk

/-! ## States with identities handed out -/

/-- All identities of the state, those of records held included, have been handed out. -/
structure AbstractState.HandedOut (state : AbstractState) (last : Nat) : Prop where
  registers : ∀ name : RegisterName,
    (state.register name).identity ≤ last ∧ (state.register name).reference ≤ last
  spills : ∀ byte : Nat, ∀ value ∈ (state.stack.slotOf byte).spill?,
    value.identity ≤ last ∧ value.reference ≤ last
  references : ∀ reference ∈ state.references, reference ≤ last

namespace AbstractState

variable {relates : Nat → Nat → Prop} {state state' : AbstractState} {last : Nat}

/-- States correspond under the part of a relation that is between identities handed out. -/
theorem Corresponds.handedOut
    (states : state.Corresponds relates state') (here : state.HandedOut last)
    (there : state'.HandedOut last) :
    state.Corresponds
      (fun identity identity' =>
        relates identity identity' ∧ identity ≤ last ∧ identity' ≤ last) state' where
  registers name :=
    have values := states.registers name
    { values with
      identity := ⟨values.identity, (here.registers name).1, (there.registers name).1⟩
      reference := ⟨values.reference, (here.registers name).2, (there.registers name).2⟩ }
  stack byte := by
    refine ⟨(states.stack byte).bytes, ?_⟩
    have spills := (states.stack byte).spills
    have known := here.spills byte
    have known' := there.spills byte
    generalize (state.stack.slotOf byte).spill? = spill? at spills known ⊢
    generalize (state'.stack.slotOf byte).spill? = spill?' at spills known' ⊢
    cases spills with
    | none => exact .none
    | some values =>
        have handed := known _ rfl
        have handed' := known' _ rfl
        exact .some { values with
          identity := ⟨values.identity, handed.1, handed'.1⟩
          reference := ⟨values.reference, handed.2, handed'.2⟩ }
  references := by
    have handed := (List.forall₂_and_left _ _).mpr ⟨here.references, states.references⟩
    have handed' := (List.forall₂_and_left _ _).mpr ⟨there.references, handed.flip⟩
    exact handed'.flip.imp fun _ _ ⟨bounded', bounded, related⟩ => ⟨related, bounded, bounded'⟩

/-- States alike with identities handed out are aligned. -/
theorem exists_alignment
    (alike : state.isAlike state' = true) (here : state.HandedOut last)
    (there : state'.HandedOut last) :
    ∃ alignment : Alignment, alignment.last = last ∧ alignment.last' = last ∧
      state.Corresponds alignment.relates state' := by
  obtain ⟨relates, zero, oneToOne, states⟩ := isAlike_iff.mp alike
  refine ⟨⟨_, last, last, ⟨zero, Nat.zero_le _, Nat.zero_le _⟩, ?_, fun related => related.2⟩,
    rfl, rfl, states.handedOut here there⟩
  exact ⟨fun _ _ _ first second => oneToOne.1 first.1 second.1,
    fun _ _ _ first second => oneToOne.2 first.1 second.1⟩

end AbstractState

theorem Alignment.isAlike
    (alignment : Alignment) {state state' : AbstractState}
    (states : state.Corresponds alignment.relates state') :
    state.isAlike state' = true :=
  states.isAlike alignment.zero alignment.oneToOne

/-! ## The check on states alike -/

/-- The same place is waiting, with a state alike. -/
def PendingPath.Alike (path path' : PendingPath) : Prop :=
  path.position = path'.position ∧ path.state.isAlike path'.state = true

/-- The program is turned away at the same position for the same reason. -/
def Rejection.Alike (rejection rejection' : Rejection) : Prop :=
  rejection.position? = rejection'.position? ∧ rejection.reason = rejection'.reason

namespace Walk

variable {walk walk' : Walk} {alignment : Alignment}

/-- Control goes to the same place from states alike, and the same places have been put aside on
top of those that wait, with states alike. -/
structure ComesAlike (waiting : List PendingPath) (made made' : Walk × Onward) : Prop where
  onward : made.2 = made'.2
  states : made.1.focus.state.isAlike made'.1.focus.state = true
  pushed : ∃ paths paths', made.1.pending = paths ++ waiting ∧
    made'.1.pending = paths' ++ waiting ∧ List.Forall₂ PendingPath.Alike paths paths'

/-- The check comes out alike. -/
def ExaminesAlike (waiting : List PendingPath) :
    Except (Log × Rejection) (Walk × Onward) → Except (Log × Rejection) (Walk × Onward) → Prop :=
  Agree (fun refused refused' => refused.2.Alike refused'.2) (ComesAlike waiting)

/-- Two walks at the same place, with what is known aligned and the same places waiting. -/
structure Abreast (alignment : Alignment) (walk walk' : Walk) : Prop where
  aligned : walk.focus.Aligned alignment walk'.focus
  position : walk'.position = walk.position
  pending : walk'.pending = walk.pending

/-- Nothing has been put aside. -/
theorem ComesAlike.of_waiting
    {waiting : List PendingPath} {made made' : Walk} {onward : Onward}
    (pending : made.pending = waiting) (pending' : made'.pending = waiting)
    (states : made.focus.state.Corresponds alignment.relates made'.focus.state) :
    ComesAlike waiting (made, onward) (made', onward) :=
  ⟨rfl, alignment.isAlike states, [], [], pending, pending', .nil⟩

theorem Abreast.settleBranch
    (abreast : Abreast alignment walk walk') {edges edges' : Edges}
    (same : edges.Corresponds alignment.relates edges') (journey : Journey) (target : Nat) :
    ExaminesAlike walk.pending (walk.settleBranch journey target edges.taken? edges.fall?)
      (walk'.settleBranch journey target edges'.taken? edges'.fall?) := by
  obtain ⟨taken?, fall?⟩ := edges
  obtain ⟨taken?', fall?'⟩ := edges'
  obtain ⟨takens, falls⟩ := same
  obtain ⟨focus', _, depth', _, explored', statistics', log'⟩ := walk'
  obtain ⟨aligned, rfl, rfl⟩ := abreast
  unfold Walk.settleBranch
  dsimp only at takens falls ⊢
  cases takens with
  | none =>
      cases falls with
      | none => exact .passed (.of_waiting rfl rfl aligned.state)
      | some falls => exact .passed (.of_waiting rfl rfl falls)
  | some takens =>
      cases falls with
      | none => exact .passed (.of_waiting rfl rfl takens)
      | @some fall fall' falls =>
          dsimp only
          rw [falls.checkEdge alignment.zero]
          cases journey.checkEdge walk.position (walk.position + 1) fall with
          | error cause => exact .failed ⟨rfl, rfl⟩
          | ok _ =>
              exact .passed ⟨rfl, alignment.isAlike takens, [⟨fall, walk.position + 1, _⟩],
                [⟨fall', walk.position + 1, _⟩], rfl, rfl,
                .cons ⟨rfl, alignment.isAlike falls⟩ .nil⟩

theorem Abreast.settle
    (abreast : Abreast alignment walk walk') {course course' : Course}
    (same : course.Corresponds alignment.relates course') (journey : Journey)
    (instruction : Instruction) :
    ExaminesAlike walk.pending (walk.settle journey instruction course)
      (walk'.settle journey instruction course') := by
  have stays {onward : Onward} : ComesAlike walk.pending (walk, onward) (walk', onward) :=
    .of_waiting rfl abreast.pending abreast.aligned.state
  unfold Walk.settle
  rw [abreast.position]
  cases same with
  | next => exact .passed stays
  | exit => exact .passed stays
  | jump =>
      cases instruction.jumpTarget? walk.position journey.code.size with
      | none => exact .failed ⟨rfl, rfl⟩
      | some target => exact .passed stays
  | branch edges =>
      cases instruction.jumpTarget? walk.position journey.code.size with
      | none => exact .failed ⟨rfl, rfl⟩
      | some target => exact abreast.settleBranch edges journey target

theorem Abreast.examine
    (abreast : Abreast alignment walk walk') (journey : Journey) (instruction : Instruction) :
    ExaminesAlike walk.pending (walk.examine journey instruction)
      (walk'.examine journey instruction) := by
  unfold Walk.examine
  rw [abreast.position]
  cases journey.code.operation? walk.position with
  | none => exact .failed ⟨rfl, rfl⟩
  | some operation =>
      obtain ⟨log, noted⟩ := noteCall_eq journey walk operation
      obtain ⟨log', noted'⟩ := noteCall_eq journey walk' operation
      have transfers : Checked.Agree (Focus.TransfersFurther alignment)
          (transfer journey.setting walk.focus operation)
          (transfer journey.setting walk'.focus operation) :=
        abreast.aligned.transfer operation
      simp only [noted, noted', abreast.position]
      generalize transfer journey.setting walk.focus operation = made at transfers ⊢
      generalize transfer journey.setting walk'.focus operation = made' at transfers ⊢
      cases transfers with
      | failed same => exact .failed ⟨rfl, same⟩
      | @passed made made' same =>
          obtain ⟨after, _, aligned, courses⟩ := same
          have next : Abreast after { walk with focus := made.1, log }
              { walk' with focus := made'.1, position := walk.position, log := log' } :=
            ⟨aligned, rfl, abreast.pending⟩
          exact next.settle courses journey instruction

/-- Of two states alike that mention no identity that has not been handed out, the check of an
instruction makes the same: it turns the program away at the same position for the same reason, or
control goes to the same place from states alike, with the same places put aside and states alike
there.  The check is what a visit makes of the instruction at its position before it goes on. -/
theorem examine_alike
    (journey : Journey) (instruction : Instruction) (walk : Walk) {state' : AbstractState}
    (alike : walk.focus.state.isAlike state' = true)
    (here : walk.focus.state.HandedOut walk.focus.lastIdentity)
    (there : state'.HandedOut walk.focus.lastIdentity) :
    ExaminesAlike walk.pending (walk.examine journey instruction)
        ((walk.withState state').examine journey instruction) ∧
      ∀ visited : Walk, journey.code[visited.position]? = some instruction →
        visited.visit journey =
          goOn journey instruction ((visited.announce journey).examine journey instruction) := by
  obtain ⟨alignment, last, last', states⟩ := AbstractState.exists_alignment alike here there
  have abreast : Abreast alignment walk (walk.withState state') :=
    ⟨⟨states, last.symm, last'.symm⟩, rfl, rfl⟩
  exact ⟨abreast.examine journey instruction, fun visited fetched => visited.visit_eq_goOn fetched⟩

/-! ### A record that may be null -/

/-- A record has been reserved and not been looked at. -/
def recordReserved (reference : Nat) : AbstractState :=
  (AbstractState.entry.setRegister .result (.recordOrNull 16 reference)).acquire reference

theorem recordReserved_handedOut {reference last : Nat} (handed : reference ≤ last) :
    (recordReserved reference).HandedOut last where
  registers name := by
    have unnamed : ∀ name : RegisterName, (AbstractState.entry.register name).identity = 0 ∧
        (AbstractState.entry.register name).reference = 0 := by decide
    have held : (recordReserved reference).register name =
        if .result = name then .recordOrNull 16 reference else AbstractState.entry.register name :=
      AbstractState.entry.register_setRegister .result name _
    rw [held]
    split
    case isTrue => exact ⟨handed, handed⟩
    case isFalse =>
      rw [(unnamed name).1, (unnamed name).2]
      exact ⟨Nat.zero_le last, Nat.zero_le last⟩
  spills byte value spilled := by
    rw [show (recordReserved reference).stack = .fresh from rfl, StackFrame.slotOf_fresh] at spilled
    cases spilled
  references := by
    rintro _ listed
    rwa [List.mem_singleton.mp listed]

/-- The first instruction leaves out the second when the record is null. -/
def nullCheckJourney : Journey where
  code := #[⟨0x15, 0, 0, 1, 0⟩, ⟨0xb7, 0, 0, 0, 2⟩, ⟨0x95, 0, 0, 0, 0⟩]
  setting := { attach := .ingress, schemas := #[] }
  limits := {}
  graph := .ofCode #[⟨0x15, 0, 0, 1, 0⟩, ⟨0xb7, 0, 0, 0, 2⟩, ⟨0x95, 0, 0, 0, 0⟩]
  loops := []

/-- A walk that has reserved a record and stands before the test whether it is there. -/
def nullCheckWalk : Walk where
  focus := { state := recordReserved 1, lastIdentity := 2 }
  position := 0
  depth := 0
  pending := []
  explored := #[]
  statistics := {}
  log := { level := .off, sizeLimit := 0 }

/-- Two paths have reserved a record each; on both the check sets the one without the record going
and puts the other aside. -/
theorem examine_alike_null_check :
    (recordReserved 1).isAlike (recordReserved 2) = true ∧ (recordReserved 1).HandedOut 2 ∧
      (recordReserved 2).HandedOut 2 ∧
      ((nullCheckWalk.examine nullCheckJourney ⟨0x15, 0, 0, 1, 0⟩).toOption.map fun made =>
          (made.2, made.1.focus.state.references, made.1.pending.map (·.position))) =
        some (.jump 2, [], [1]) ∧
      ExaminesAlike [] (nullCheckWalk.examine nullCheckJourney ⟨0x15, 0, 0, 1, 0⟩)
        ((nullCheckWalk.withState (recordReserved 2)).examine nullCheckJourney
          ⟨0x15, 0, 0, 1, 0⟩) ∧
      nullCheckWalk.visit nullCheckJourney =
        goOn nullCheckJourney ⟨0x15, 0, 0, 1, 0⟩
          ((nullCheckWalk.announce nullCheckJourney).examine nullCheckJourney
            ⟨0x15, 0, 0, 1, 0⟩) := by
  have alike : (recordReserved 1).isAlike (recordReserved 2) = true := by decide +kernel
  have here : (recordReserved 1).HandedOut 2 := recordReserved_handedOut (by decide)
  have there : (recordReserved 2).HandedOut 2 := recordReserved_handedOut (by decide)
  have examined := examine_alike nullCheckJourney ⟨0x15, 0, 0, 1, 0⟩ nullCheckWalk alike here there
  exact ⟨alike, here, there, by decide +kernel, examined.1, examined.2 nullCheckWalk rfl⟩

end Walk

end PacketFilter
