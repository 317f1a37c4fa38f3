import PacketFilter.Proofs.Outcomes

/-!
# Isolation between runs

Only the part of the stack that the program may touch is cleared before a run.
A program that was let through does not notice what is left in the rest, so
runs that begin with different stacks come to the same result.
-/

namespace PacketFilter

/-- What a run leaves behind for others to see. -/
structure RunResult.Agrees (first second : RunResult) : Prop where
  outcome : first.outcome = second.outcome
  context : first.context = second.context
  store : first.store = second.store

theorem Engine.resultOf_withStack
    (context : PacketContext) (result : Except Fault Word) (machine : Machine) (stack : Bytes) :
    (resultOf context (result, machine)).Agrees
      (resultOf context (result, machine.withStack stack)) :=
  ⟨rfl, rfl, rfl⟩

section

variable {setup : Setup} {machine machine' : Machine} {twin twin' : Bytes}

/-- Runs that end alike leave the same behind. -/
theorem agrees_of_runWithin
    {result : Except Fault Word} (context : PacketContext)
    (here : machine.runWithin setup setup.budget = (result, machine'))
    (there : (machine.withStack twin).runWithin setup setup.budget =
      (result, machine'.withStack twin')) :
    (Engine.resultOf context (machine.run setup)).Agrees
      (Engine.resultOf context ((machine.withStack twin).run setup)) := by
  rw [Machine.run_of_runWithin here, Machine.run_of_runWithin there, Machine.close_withStack]
  exact Engine.resultOf_withStack context _ _ twin'

end

section

variable {config : VerifierConfig} {find? : String → Option (MapId × Schema)}
variable {program : Program} {elapsed : String} {verified : VerifiedProgram}

/-- What other runs have left on the stack makes no difference to a program that was let through,
if its null tests are whole. -/
theorem verified_run_isolated
    (passed : Verifier.verify config find? program elapsed = .ok verified)
    (tests : ∀ check ∈ Verifier.checks config find? program, check.1.testsHalf check.2 = false)
    {engine : Engine} {context : PacketContext} (fits : context.Fits)
    (room : StackFrame.size ≤ engine.stackSize % 2 ^ 32 ∨
      context.packet.size + StackFrame.size ≤ 2 ^ 32)
    {store : Store} (provides : store.Provides find? program)
    (clock : Clock) (area area' : WorkArea) :
    (engine.run clock verified context area store).Agrees
      (engine.run clock verified context area' store) := by
  rcases Verifier.verify_establishes passed with ⟨rfl, journey, trail, establishes⟩
  have roomy : (engine.scene journey.setting verified context).Roomy := room
  rcases Engine.runs establishes provides fits roomy tests clock area area' with
    ⟨walk, twin, same, runs⟩
  rw [Engine.run_eq, Engine.run_eq, same]
  cases runs with
  | exits code machine' twin' here there closed least greatest =>
      exact agrees_of_runWithin context here there
  | fails position address size machine' twin' here there missed =>
      exact agrees_of_runWithin context here there
  | spent passed machine' twin' here there length passes =>
      exact agrees_of_runWithin context here there

end

/-- Put a number on the stack and take it from there. -/
def stackProgram : Program where
  name := "stack"
  code := #[⟨0x7a, 10, 0, -8, 2⟩, ⟨0x79, 0, 10, -8, 0⟩, ⟨0xb7, 0, 0, 0, 2⟩, ⟨0x95, 0, 0, 0, 0⟩]

/-- A stack on which a run has left its bytes. -/
def usedArea : WorkArea :=
  ⟨Array.replicate 512 0x66⟩

theorem stack_run_isolated :
    ∃ verified, Verifier.verify {} (fun _ => none) stackProgram "" = .ok verified ∧
      (({} : Engine).run (.still 0) verified { packet := #[1, 2, 3] } (.zeroed 512) {}).Agrees
        (({} : Engine).run (.still 0) verified { packet := #[1, 2, 3] } usedArea {}) := by
  have accepted : (Verifier.verify {} (fun _ => none) stackProgram "").toOption.any
      (fun _ => true) = true := by decide +kernel
  have provides : Store.Provides {} (fun _ => none) stackProgram :=
    ⟨Store.forWorkers_wellFormed 1, fun _ listed => by cases listed⟩
  rcases Verifier.accepted_of_any accepted with ⟨verified, passed, _⟩
  exact ⟨verified, passed,
    verified_run_isolated passed (by decide +kernel) ⟨rfl, by decide, by decide, by decide⟩
      (.inl (by decide)) provides (.still 0) (.zeroed 512) usedArea⟩

/-- A store with one hash map, under the name "m", in which one key has a value. -/
def filledStore : Store :=
  let created := (Store.create "m" (.hash 4 8 4)).run (.forWorkers 1)
  let fill := Map.update #[0, 0, 0, 0] #[1, 2, 3, 4, 5, 6, 7, 8] .createOrReplace
  ((Store.onMap 0 fill).run created.2).2

/-- Look up a key and test the low half of the pointer found, which is zero although the pointer
is not.  Then use the pointer as the number that it seems to be. -/
def leftoverProgram : Program where
  name := "leftover"
  code := #[⟨0xbf, 6, 1, 0, 0⟩, ⟨0x7a, 10, 0, -8, 0⟩, ⟨0x18, 1, 1, 0, 0⟩, ⟨0, 0, 0, 0, 0⟩,
    ⟨0xbf, 2, 10, 0, 0⟩, ⟨0x07, 2, 0, 0, -8⟩, ⟨0x85, 0, 0, 0, 1⟩, ⟨0x16, 0, 0, 2, 0⟩,
    ⟨0xb7, 0, 0, 0, 2⟩, ⟨0x95, 0, 0, 0, 0⟩, ⟨0x77, 0, 0, 0, 32⟩, ⟨0x27, 0, 0, 0, 64⟩,
    ⟨0xbf, 2, 10, 0, 0⟩, ⟨0x1f, 2, 0, 0, 0⟩, ⟨0x79, 3, 2, -8, 0⟩, ⟨0x63, 6, 3, 24, 0⟩,
    ⟨0xb7, 0, 0, 0, 2⟩, ⟨0x95, 0, 0, 0, 0⟩]
  bindings := [⟨"m", .hash, 4, 8⟩]

/-- What another run has left on the stack ends up in the context. -/
theorem leftover_run_not_isolated :
    ∃ verified, Verifier.verify {} filledStore.binding? leftoverProgram "" = .ok verified ∧
      ¬ (({} : Engine).run (.still 0) verified
        { packet := #[1, 2, 3] } (.zeroed 512) filledStore).Agrees
        (({} : Engine).run (.still 0) verified { packet := #[1, 2, 3] } usedArea filledStore) := by
  let scratch (verified : VerifiedProgram) (area : WorkArea) : Bytes :=
    (({} : Engine).run (.still 0) verified
      { packet := #[1, 2, 3] } area filledStore).context.scratch
  have differ : (Verifier.verify {} filledStore.binding? leftoverProgram "").toOption.any
      (fun verified => scratch verified (.zeroed 512) != scratch verified usedArea) = true := by
    decide +kernel
  rcases Verifier.accepted_of_any differ with ⟨verified, passed, differ⟩
  refine ⟨verified, passed, fun agrees => ?_⟩
  exact bne_iff_ne.mp differ (congrArg PacketContext.scratch agrees.context)

end PacketFilter
