import Mathlib.Tactic.IntervalCases
import PacketFilter.Proofs.Outcomes

/-!
# Termination of verified programs

A run stays at places that the walk over the program has visited, in an order
in which the walk has gone on from one to the next.  When the walk nowhere
comes back to where it has been, no run is longer than its trail.
-/

namespace PacketFilter

/-! ## Walks that do not come back -/

/-- The places that an instruction leads to, if it is let through. -/
def Walk.leads (journey : Journey) (walk : Walk) : List Place :=
  match journey.code[walk.position]?, journey.code.operation? walk.position with
  | some instruction, some operation =>
    match transfer journey.setting walk.focus operation with
    | .ok (focus, course) =>
      course.leads focus.state instruction walk.position journey.code.size
    | .error _ => []
  | _, _ => []

/-- Wherever the walk goes on, the rank rises. -/
def Journey.Rises (journey : Journey) (trail : List Walk) (rank : Walk → Nat) : Prop :=
  ∀ walk ∈ trail, ∀ next ∈ trail,
    next.place ∈ walk.leads journey ∨ walk.Resumes journey next → rank walk < rank next

section

variable {journey : Journey} {trail : List Walk} {walk next : Walk}

theorem Walk.Visits.eq_leads
    {focus : Focus} {places : List Place}
    (visits : walk.Visits journey focus places) :
    places = walk.leads journey := by
  rcases visits with ⟨instruction, operation, course, fetched, decoded, passed, _, rfl⟩
  simp only [Walk.leads, fetched, decoded, passed]

theorem Walk.resumes_iff :
    walk.Resumes journey next ↔
      walk.isPruned journey = true ∧ next.isPruned journey = false ∧
        next.position = walk.position ∧ next.focus.state ∈ walk.seenAt walk.position ∧
          walk.focus.state.isAlike next.focus.state = true :=
  ⟨fun resumes => ⟨resumes.pruned, resumes.visited, resumes.here, resumes.kept, resumes.alike⟩,
    fun ⟨pruned, visited, here, kept, alike⟩ => ⟨pruned, visited, here, kept, alike⟩⟩

instance (journey : Journey) (walk next : Walk) : Decidable (walk.Resumes journey next) :=
  decidable_of_iff _ Walk.resumes_iff.symm

instance (journey : Journey) (trail : List Walk) (rank : Walk → Nat) :
    Decidable (journey.Rises trail rank) :=
  inferInstanceAs (Decidable (∀ walk ∈ trail, ∀ next ∈ trail, _ → rank walk < rank next))

/-- A rank that rises shows that the walk does not come back. -/
theorem Journey.Rises.lt
    {rank : Walk → Nat}
    (rises : journey.Rises trail rank)
    (onward : Relation.TransGen (journey.GoesOn trail) walk next) :
    rank walk < rank next := by
  have once {walk next : Walk} (goesOn : journey.GoesOn trail walk next) :
      rank walk < rank next := by
    cases goesOn with
    | edge here there focus places visits led =>
        exact rises walk here next there (.inl (visits.eq_leads ▸ led))
    | resumes here there resumes => exact rises walk here next there (.inr resumes)
  induction onward with
  | single goesOn => exact once goesOn
  | tail _ goesOn earlier => exact earlier.trans (once goesOn)

theorem Verifier.not_comesBack
    {config : VerifierConfig} {find? : String → Option (MapId × Schema)} {program : Program}
    (rank : Walk → Nat)
    (rises : ∀ survey ∈ survey? config find? program, survey.1.Rises survey.2 rank) :
    ¬ ComesBack config find? program := by
  rintro ⟨journey, trail, walk, surveyed, back⟩
  exact Nat.lt_irrefl _ ((rises (journey, trail) surveyed).lt back)

end

/-! ## Runs -/

section

variable {config : VerifierConfig} {find? : String → Option (MapId × Schema)}
variable {program : Program} {elapsed : String} {verified : VerifiedProgram}

/-- A program that was let through ends within a number of steps that does not depend on its
input, if the walk over it does not come back and its null tests are whole. -/
theorem verified_run_ends
    (passed : Verifier.verify config find? program elapsed = .ok verified)
    (tests : ∀ check ∈ Verifier.checks config find? program, check.1.testsHalf check.2 = false)
    (onward : ¬ Verifier.ComesBack config find? program) :
    ∃ bound, ∀ (engine : Engine) (context : PacketContext) (store : Store) (clock : Clock)
      (area : WorkArea), bound ≤ engine.budget → context.Fits → store.Provides find? program →
        StackFrame.size ≤ engine.stackSize % 2 ^ 32 ∨
          context.packet.size + StackFrame.size ≤ 2 ^ 32 →
        ∀ budget, (engine.run clock verified context area store).outcome ≠
          .error (.budgetExceeded budget) := by
  rcases Verifier.verify_establishes passed with ⟨rfl, journey, trail, establishes⟩
  refine ⟨trail.length + 1, ?_⟩
  intro engine context store clock area enough fits provides room budget exceeded
  have roomy : (engine.scene journey.setting verified context).Roomy := room
  rcases Engine.runs establishes provides fits roomy tests clock area area with
    ⟨walk, twin, _, runs⟩
  cases runs with
  | exits code machine' twin' here there closed least greatest =>
      rw [Engine.outcome_of_exit here closed] at exceeded
      rcases Verdict.ofCode_eq_error exceeded with absurdity | absurdity
      · cases absurdity
      · cases absurdity
  | fails position address size machine' twin' here there missed =>
      rw [Engine.outcome_of_fault here] at exceeded
      cases exceeded
  | spent places machine' twin' here there length passes =>
      have few : places.length ≤ trail.length := passes.length_le fun place back =>
        onward ⟨journey, trail, place, establishes.survey, back⟩
      omega

end

/-- Count to three. -/
def countProgram : Program where
  name := "count"
  code := #[⟨0xb7, 1, 0, 0, 0⟩, ⟨0x07, 1, 0, 0, 1⟩, ⟨0xa5, 1, 0, -2, 3⟩, ⟨0xb7, 0, 0, 0, 2⟩,
    ⟨0x95, 0, 0, 0, 0⟩]

theorem count_run_ends :
    ∃ verified, Verifier.verify {} (fun _ => none) countProgram "" = .ok verified ∧
      ∃ bound, ∀ (engine : Engine) (context : PacketContext) (store : Store) (clock : Clock)
        (area : WorkArea), bound ≤ engine.budget → context.Fits →
          store.Provides (fun _ => none) countProgram →
          StackFrame.size ≤ engine.stackSize % 2 ^ 32 ∨
            context.packet.size + StackFrame.size ≤ 2 ^ 32 →
          ∀ budget, (engine.run clock verified context area store).outcome ≠
            .error (.budgetExceeded budget) := by
  have accepted : (Verifier.verify {} (fun _ => none) countProgram "").toOption.any
      (fun _ => true) = true := by decide +kernel
  have rises : ∀ survey ∈ Verifier.survey? {} (fun _ => none) countProgram,
      survey.1.Rises survey.2 fun walk => walk.statistics.processed := by decide +kernel
  rcases Verifier.accepted_of_any accepted with ⟨verified, passed, _⟩
  exact ⟨verified, passed,
    verified_run_ends passed (by decide +kernel) (Verifier.not_comesBack _ rises)⟩

/-- Two loops that share a header; each turns the counter of the other back. -/
def seesawProgram : Program where
  name := "seesaw"
  code := #[⟨0xb7, 1, 0, 0, 0⟩, ⟨0xb7, 2, 0, 0, 1⟩, ⟨0xb7, 3, 0, 0, 0⟩, ⟨0x55, 3, 0, 6, 0⟩,
    ⟨0xb7, 3, 0, 0, 1⟩, ⟨0x07, 1, 0, 0, 1⟩, ⟨0xb7, 2, 0, 0, 0⟩, ⟨0xa5, 1, 0, -5, 10⟩,
    ⟨0xb7, 0, 0, 0, 2⟩, ⟨0x95, 0, 0, 0, 0⟩, ⟨0xb7, 3, 0, 0, 0⟩, ⟨0x07, 2, 0, 0, 1⟩,
    ⟨0xb7, 1, 0, 0, 0⟩, ⟨0xa5, 2, 0, -11, 10⟩, ⟨0xb7, 0, 0, 0, 2⟩, ⟨0x95, 0, 0, 0, 0⟩]

/-- Where the machine is after so many steps, with its counters and its flag; from the thirteenth
step on it is where it was after the third. -/
def seesawPlace : Nat → Nat × Word × Word × Word
  | 0 => (0, Memory.contextPointer, 0, 0)
  | 1 => (1, 0, 0, 0)
  | 2 => (2, 0, 1, 0)
  | 4 => (4, 0, 1, 0)
  | 5 => (5, 0, 1, 1)
  | 6 => (6, 1, 1, 1)
  | 7 => (7, 1, 0, 1)
  | 8 => (3, 1, 0, 1)
  | 9 => (10, 1, 0, 1)
  | 10 => (11, 1, 0, 0)
  | 11 => (12, 1, 1, 0)
  | 12 => (13, 0, 1, 0)
  | _ => (3, 0, 1, 0)

/-- The operation in each slot of the program that goes to and fro. -/
def seesawOperation : Nat → Operation
  | 0 => .compute .whole .move .first (.immediate 0)
  | 1 => .compute .whole .move .second (.immediate 1)
  | 3 => .branch .whole .differ .third (.immediate 0)
  | 4 => .compute .whole .move .third (.immediate 1)
  | 5 => .compute .whole .add .first (.immediate 1)
  | 6 => .compute .whole .move .second (.immediate 0)
  | 7 => .branch .whole .below .first (.immediate 10)
  | 11 => .compute .whole .add .second (.immediate 1)
  | 12 => .compute .whole .move .first (.immediate 0)
  | 13 => .branch .whole .below .second (.immediate 10)
  | _ => .compute .whole .move .third (.immediate 0)

/-- The machine at a place of the program that goes to and fro, having made so many steps. -/
def seesawMachine (memory : Memory) (steps index : Nat) : Machine where
  registers :=
    let (_, first, second, flag) := seesawPlace index
    #v[0, first, second, flag, 0, 0, 0, 0, 0, 0, memory.framePointer]
  position := (seesawPlace index).1
  steps
  memory

theorem seesaw_step
    {setup : Setup} {index : Nat} (memory : Memory) (steps : Nat)
    (code : setup.code = seesawProgram.code) (inside : index < 13) :
    (Execution.step setup).run (seesawMachine memory steps index) =
      (.ok none, seesawMachine memory (steps + 1) (index + 1)) := by
  have decodes : ∀ index < 13, seesawProgram.code.operation? (seesawPlace index).1 =
      some (seesawOperation (seesawPlace index).1) := by decide +kernel
  have decoded := decodes index inside
  rw [← code] at decoded
  rcases setup with ⟨_, maps, attach, clock, budget⟩
  cases code
  interval_cases index
  all_goals exact (Execution.run_step _ rfl decoded).trans rfl

theorem seesaw_runWithin
    {setup : Setup} (code : setup.code = seesawProgram.code) (memory : Memory) (left : Nat) :
    ∀ (steps : Nat) {index : Nat}, index < 13 →
      ∃ machine', (seesawMachine memory steps index).runWithin setup left =
        (.error (.budgetExceeded setup.budget), machine') := by
  induction left with
  | zero => exact fun _ _ _ => ⟨_, rfl⟩
  | succ left continues =>
      intro steps index inside
      rw [runWithin_of_moves left (seesaw_step memory steps code inside)]
      rcases Nat.lt_or_ge (index + 1) 13 with within | last
      · exact continues (steps + 1) within
      · obtain rfl : index = 12 := by omega
        have back : seesawMachine memory (steps + 1) (12 + 1) =
            seesawMachine memory (steps + 1) 3 := rfl
        rw [back]
        exact continues (steps + 1) (by decide)

/-- The program is let through, and no budget is enough for it: the path through both loops is
ended at a state of which it is itself a part. -/
theorem seesaw_never_ends :
    ∃ verified, Verifier.verify {} (fun _ => none) seesawProgram "" = .ok verified ∧
      ∀ budget,
        (({ budget } : Engine).run (.still 0) verified
          { packet := #[1, 2, 3] } (.zeroed 512) {}).outcome =
          .error (.budgetExceeded budget) := by
  have accepted : (Verifier.verify {} (fun _ => none) seesawProgram "").toOption.any
      (fun _ => true) = true := by decide +kernel
  rcases Verifier.accepted_of_any accepted with ⟨verified, passed, _⟩
  refine ⟨verified, passed, fun budget => ?_⟩
  let engine : Engine := { budget }
  have code : (engine.setup (.still 0) verified).code = seesawProgram.code := by
    rw [Engine.setup, (Verifier.verify_establishes passed).1]
  rcases seesaw_runWithin code (Engine.memory { packet := #[1, 2, 3] }
      ((WorkArea.zeroed 512).reset engine.stackSize verified.statistics.stackDepth) {}) budget 0
    (show 0 < 13 by decide) with ⟨machine', ended⟩
  exact Engine.outcome_of_fault ended

end PacketFilter
