import PacketFilter.Proofs.Entering

/-!
# Outcomes of runs

However a run ends, the records still held are discarded, and the outcome is
read off the register for results.  A run of a verified program comes to the
same end with either of two stacks.
-/

namespace PacketFilter

namespace Memory

theorem openRecords_eq_nil
    {memory : Memory} (closed : ∀ number, memory.record? number = none) :
    memory.openRecords = [] := by
  refine List.filterMap_eq_nil_iff.mpr fun entry listed => ?_
  rcases Array.getElem?_of_mem (Array.mem_toList_iff.mp listed) with ⟨number, there⟩
  have absent := closed number
  rw [record?, there] at absent
  exact absent

/-- Discarding what is open changes nothing but the store, and empties the places of records. -/
theorem discardOpen_eq (memory : Memory) :
    memory.discardOpen =
      { memory with
        records := memory.records.map fun _ => none
        store := memory.discardOpen.store } := by
  let complete (memory : Memory) (record : OpenRecord) : Memory := memory.complete record true
  have completed (records : List OpenRecord) :
      ∀ memory : Memory, records.foldl complete memory =
        { memory with store := (records.foldl complete memory).store } := by
    induction records with
    | nil => exact fun _ => rfl
    | cons record records later =>
        intro memory
        rw [List.foldl_cons, later (complete memory record)]
        rfl
  exact congrArg
    (fun completed : Memory => { completed with records := memory.records.map fun _ => none })
    (completed memory.openRecords memory)

/-- Discarding what is open does not look at the stack. -/
theorem discardOpen_withStack (memory : Memory) (stack : Bytes) :
    (memory.withStack stack).discardOpen = memory.discardOpen.withStack stack := by
  let complete (memory : Memory) (record : OpenRecord) : Memory := memory.complete record true
  have completed :
      memory.openRecords.foldl complete (memory.withStack stack) =
        (memory.openRecords.foldl complete memory).withStack stack :=
    List.foldl_hom (fun memory : Memory => memory.withStack stack) fun _ _ => rfl
  exact congrArg
    (fun completed : Memory => { completed with records := memory.records.map fun _ => none })
    completed

end Memory

namespace Machine

variable {setup : Setup} {machine machine' : Machine}

theorem close_withStack
    (result : Except Fault Word) (machine : Machine) (stack : Bytes) :
    (machine.withStack stack).close result =
      ((machine.close result).1, (machine.close result).2.withStack stack) := by
  have closed := machine.memory.discardOpen_withStack stack
  cases result with
  | error fault =>
      simp only [close, withStack_memory, closed]
      rfl
  | ok code =>
      have same : (machine.memory.withStack stack).openRecords = machine.memory.openRecords := rfl
      simp only [close, withStack_memory, closed, same]
      split <;> rfl

/-- Whatever way a run has ended, closing it discards what is open. -/
theorem close_memory (result : Except Fault Word) (machine : Machine) :
    (machine.close result).2.memory = machine.memory.discardOpen := by
  cases result with
  | error fault => rfl
  | ok code =>
      rw [close]
      split <;> rfl

theorem run_of_runWithin
    {result : Except Fault Word}
    (ended : machine.runWithin setup setup.budget = (result, machine')) :
    machine.run setup = machine'.close result := by
  rw [run, ended]

end Machine

/-- The faults that come from the code a program has left. -/
theorem Verdict.ofCode_eq_error
    {code : Word} {target? : Option Nat} {fault : Fault}
    (failed : ofCode code target? = .error fault) :
    fault = .missingRedirectTarget ∨ fault = .invalidReturnCode code := by
  unfold ofCode at failed
  split at failed
  · cases failed
  · cases failed
  · cases failed
  · cases failed
  · cases target? with
    | none =>
        cases failed
        exact .inl rfl
    | some target => cases failed
  · cases failed
    exact .inr rfl

namespace Engine

/-- What a run leaves behind, given how it ended. -/
def resultOf (context : PacketContext) (ended : Except Fault Word × Machine) : RunResult :=
  let outcome := ended.1.bind fun code => Verdict.ofCode code ended.2.redirectTarget?
  let verdict := match outcome with
    | .ok verdict => verdict
    | .error _ => .error
  { outcome
    context :=
      { context with
        packet := ended.2.memory.packet
        scratch := ended.2.memory.scratch
        verdict? := some verdict }
    area := ⟨ended.2.memory.stack⟩
    store := ended.2.memory.store }

variable {config : VerifierConfig} {find? : String → Option (MapId × Schema)}
variable {verified : VerifiedProgram} {journey : Journey} {trail : List Walk}
variable {engine : Engine} {context : PacketContext} {store : Store}

theorem run_eq (engine : Engine) (clock : Clock) (verified : VerifiedProgram)
    (context : PacketContext) (area : WorkArea) (store : Store) :
    engine.run clock verified context area store =
      resultOf context
        ((engine.machine verified context area store).run (engine.setup clock verified)) :=
  rfl

/-- The outcome of a run that has failed is its fault. -/
theorem outcome_of_fault
    {clock : Clock} {area : WorkArea} {fault : Fault} {machine' : Machine}
    (ended : (engine.machine verified context area store).runWithin (engine.setup clock verified)
      engine.budget = (.error fault, machine')) :
    (engine.run clock verified context area store).outcome = .error fault := by
  rw [run_eq, Machine.run_of_runWithin ended]
  rfl

/-- The outcome of a run that has ended with nothing open is the verdict of its code. -/
theorem outcome_of_exit
    {clock : Clock} {area : WorkArea} {code : Word} {machine' : Machine}
    (ended : (engine.machine verified context area store).runWithin (engine.setup clock verified)
      engine.budget = (.ok code, machine'))
    (closed : ∀ number, machine'.memory.record? number = none) :
    (engine.run clock verified context area store).outcome =
      Verdict.ofCode code machine'.redirectTarget? := by
  have emptied := Memory.openRecords_eq_nil closed
  rw [run_eq, Machine.run_of_runWithin ended]
  simp only [Machine.close, emptied, List.isEmpty_nil, if_true]
  rfl

/-- Where a run of a verified program gets, with the stack of either of two workers. -/
theorem runs
    (establishes : Verifier.Establishes config find? verified journey trail)
    (provides : store.Provides find? verified.program) (fits : context.Fits)
    (roomy : (engine.scene journey.setting verified context).Roomy)
    (whole : ∀ check ∈ Verifier.checks config find? verified.program,
      check.1.testsHalf check.2 = false)
    (clock : Clock) (area area' : WorkArea) :
    ∃ (walk : Walk) (twin : Bytes),
      engine.machine verified context area' store =
        (engine.machine verified context area store).withStack twin ∧
      walk.Runs journey trail (engine.scene journey.setting verified context)
        (engine.setup clock verified) (engine.machine verified context area store) twin
        engine.budget := by
  rcases stands establishes provides fits area area' with ⟨walk, twin, same, stands⟩
  exact ⟨walk, twin, same, Walk.Stands.runs (guides establishes clock roomy whole) _ stands⟩

end Engine

end PacketFilter
