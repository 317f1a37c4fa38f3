import PacketFilter.Proofs.Outcomes
import PacketFilter.Proofs.RecordDeeds

/-!
# Records of a run

Every instruction leaves the records of a run alone, except that a reservation
adds one and a submission or a discard takes one back.  A record that has been
taken back is never opened again, so one that is not open when the program
exits has been taken back at exactly one step.
-/

namespace PacketFilter

/-- How an instruction may change the records of a run. -/
inductive Memory.Records (before after : Memory) : Prop
  | kept (same : after.records = before.records)
  | reserved (record : OpenRecord) (size : Nat)
      (claimed : before.store.onRing record.map (fun ring => ring.reserve size) =
        (some (some record.reservation), after.store))
      (added : after.records = before.records.push (some record))
  | completed (number : Nat) (record : OpenRecord) (isDiscarded : Bool)
      (held : before.record? number = some record)
      (store : after.store = (before.complete record isDiscarded).store)
      (removed : after.records = before.records.setIfInBounds number none)

namespace Memory

variable {memory memory' : Memory} {address : Word}

theorem release?_eq_some
    {record : OpenRecord} (released : memory.release? address = some (record, memory')) :
    ∃ number, memory.recordNumber? address = some number ∧ memory.record? number = some record ∧
      memory' = { memory with records := memory.records.setIfInBounds number none } := by
  rw [release?_eq] at released
  rcases Option.bind_eq_some_iff.mp released with ⟨number, named, released⟩
  rcases Option.map_eq_some_iff.mp released with ⟨held, there, made⟩
  cases made
  exact ⟨number, named, there, rfl⟩

end Memory

/-- A helper changes the records of a run in one of the ways there are. -/
theorem Helper.Does.records
    {helper : Helper} {before after : Memory} {argument : RegisterName → Word} {answer : Word}
    {deed : RecordDeed} (does : helper.Does before argument answer after deed) :
    before.Records after := by
  cases does with
  | idles _ _ quiet => exact .kept quiet.records
  | outputs _ stored => exact .kept (stored ▸ rfl)
  | @reserves record store claims handed =>
      rcases Memory.addRecord_eq_some handed with ⟨_, _, rfl⟩
      exact .reserved record _ claims rfl
  | drops _ dropped =>
      cases Memory.addRecord_eq_none dropped
      exact .kept rfl
  | submits taken committed =>
      rcases Memory.release?_eq_some taken with ⟨number, _, held, rfl⟩
      exact .completed number _ false held (committed ▸ rfl) (committed ▸ rfl)
  | discards taken committed =>
      rcases Memory.release?_eq_some taken with ⟨number, _, held, rfl⟩
      exact .completed number _ true held (committed ▸ rfl) (committed ▸ rfl)

theorem Machine.Does.records
    {setup : Setup} {before after : Machine} {deed : RecordDeed}
    (does : before.Does setup after deed) : before.memory.Records after.memory := by
  rcases does with ⟨operation, _, does⟩
  cases does with
  | plain _ quiet => exact .kept quiet.records
  | calls _ does => exact does.records

namespace Execution

variable (setup : Setup)

theorem records_step (machine : Machine) :
    machine.memory.Records ((step setup).run machine).2.memory := by
  have ends := ends_step setup machine
  rw [Ends] at ends
  generalize (step setup).run machine = ran at ends ⊢
  rcases ran with ⟨fault | code?, after⟩
  · exact .kept ends.1.records
  · cases code? with
    | some code => exact .kept (congrArg Memory.records ends)
    | none =>
        rcases ends with ⟨deed, does⟩
        exact does.records

theorem step_memory_of_exit
    {machine machine' : Machine} {code : Word}
    (ended : (step setup).run machine = (.ok (some code), machine')) :
    machine'.memory = machine.memory := by
  have ends := ends_step setup machine
  rw [Ends, ended] at ends
  exact ends

end Execution

namespace Machine

/-- The machine after so many steps, none of which is the last. -/
def after? (setup : Setup) : Nat → Machine → Option Machine
  | 0, machine => some machine
  | steps + 1, machine =>
    match (Execution.step setup).run machine with
    | (.ok none, machine) => after? setup steps machine
    | _ => none

/-- Between the two machines the record is submitted or discarded, and taken back. -/
def Completes (before after : Machine) (number : Nat) : Prop :=
  ∃ record isDiscarded, before.memory.record? number = some record ∧
    after.memory.store = (before.memory.complete record isDiscarded).store ∧
      after.memory.record? number = none

/-- The step after so many steps completes the record. -/
def CompletesAt (setup : Setup) (machine : Machine) (step number : Nat) : Prop :=
  ∃ before after, machine.after? setup step = some before ∧
    machine.after? setup (step + 1) = some after ∧ before.Completes after number

variable {setup : Setup} {machine machine' : Machine} {step number : Nat}

theorem after?_succ
    (moves : (Execution.step setup).run machine = (.ok none, machine')) (steps : Nat) :
    machine.after? setup (steps + 1) = machine'.after? setup steps := by
  rw [after?, moves]

theorem completesAt_zero
    (moves : (Execution.step setup).run machine = (.ok none, machine')) :
    machine.CompletesAt setup 0 number ↔ machine.Completes machine' number := by
  have first : machine.after? setup 1 = some machine' := after?_succ moves 0
  constructor
  · rintro ⟨before, after, here, there, completes⟩
    cases here
    cases first.symm.trans there
    exact completes
  · intro completes
    exact ⟨machine, machine', rfl, first, completes⟩

theorem completesAt_succ
    (moves : (Execution.step setup).run machine = (.ok none, machine')) :
    machine.CompletesAt setup (step + 1) number ↔ machine'.CompletesAt setup step number := by
  simp only [CompletesAt, after?_succ moves]

end Machine

/-! ## Records that have been taken back -/

/-- The record has been reserved and taken back. -/
def Memory.Settled (memory : Memory) (number : Nat) : Prop :=
  number < memory.records.size ∧ memory.record? number = none

namespace Memory.Records

variable {before after : Memory} {number : Nat}

theorem size_le (records : before.Records after) : before.records.size ≤ after.records.size := by
  cases records with
  | kept same => rw [same]
  | reserved record size claimed added =>
      rw [added, Array.size_push]
      exact Nat.le_succ _
  | completed number record isDiscarded held store removed =>
      rw [removed, Array.size_setIfInBounds]

theorem settled (records : before.Records after) (settled : before.Settled number) :
    after.Settled number := by
  refine ⟨settled.1.trans_le records.size_le, ?_⟩
  cases records with
  | kept same =>
      rw [record?, same]
      exact settled.2
  | reserved record size claimed added =>
      rw [record?_push added, if_neg (Nat.ne_of_lt settled.1)]
      exact settled.2
  | completed other record isDiscarded held store removed =>
      rw [record?_clear removed, settled.2, ite_self]

end Memory.Records

namespace Machine

variable {setup : Setup} {machine machine' : Machine} {number : Nat}

/-- A record is settled by the step that completes it, and by no other. -/
theorem settled_iff_completes
    (records : machine.memory.Records machine'.memory) (open' : ¬ machine.memory.Settled number) :
    machine'.memory.Settled number ↔ machine.Completes machine' number := by
  constructor
  · intro settled
    cases records with
    | kept same =>
        rw [Memory.Settled, Memory.record?, same] at settled
        exact absurd settled open'
    | reserved record size claimed added =>
        rw [Memory.Settled, Memory.record?_push added, added, Array.size_push] at settled
        split at settled
        case isTrue => cases settled.2
        case isFalse apart => exact absurd ⟨by omega, settled.2⟩ open'
    | completed other record isDiscarded held store removed =>
        have taken := settled.2
        rw [Memory.record?_clear removed] at taken
        split at taken
        case isTrue same =>
          subst same
          exact ⟨record, isDiscarded, held, store, settled.2⟩
        case isFalse =>
          rw [Memory.Settled, removed, Array.size_setIfInBounds] at settled
          exact absurd ⟨settled.1, taken⟩ open'
  · rintro ⟨record, isDiscarded, held, _, taken⟩
    exact ⟨(Memory.lt_of_record held).trans_le records.size_le, taken⟩

theorem not_completes_of_settled (settled : machine.memory.Settled number) :
    ¬ machine.Completes machine' number := by
  rintro ⟨record, isDiscarded, held, _⟩
  cases settled.2.symm.trans held

theorem records_of_moves
    {result : Except Fault (Option Word)}
    (moves : (Execution.step setup).run machine = (result, machine')) :
    machine.memory.Records machine'.memory := by
  have records := Execution.records_step setup machine
  rw [moves] at records
  exact records

/-- A record that is settled is not completed again. -/
theorem not_completesAt_of_settled (step : Nat) :
    ∀ {machine : Machine}, machine.memory.Settled number →
      ¬ machine.CompletesAt setup step number := by
  induction step with
  | zero =>
      rintro machine settled ⟨before, after, here, _, completes⟩
      cases here
      exact not_completes_of_settled settled completes
  | succ step later =>
      intro machine settled completes
      rcases moves : (Execution.step setup).run machine with ⟨_ | _ | code, machine'⟩
      · rcases completes with ⟨before, after, here, _⟩
        rw [after?, moves] at here
        cases here
      · exact later ((records_of_moves moves).settled settled)
          ((completesAt_succ moves).mp completes)
      · rcases completes with ⟨before, after, here, _⟩
        rw [after?, moves] at here
        cases here

/-- A record that is settled when the program exits has been completed at one step. -/
theorem completed_once {code : Word} {final : Machine} (steps : Nat) :
    ∀ {machine : Machine}, machine.runWithin setup steps = (.ok code, final) →
      final.memory.Settled number → ¬ machine.memory.Settled number →
        ∃! step, machine.CompletesAt setup step number := by
  induction steps with
  | zero =>
      intro machine ended
      cases ended
  | succ steps later =>
      intro machine ended settled open'
      rw [runWithin] at ended
      rcases moves : (Execution.step setup).run machine with ⟨_ | _ | last, machine'⟩
      · rw [moves] at ended
        cases ended
      · rw [moves] at ended
        have records := records_of_moves moves
        by_cases now : machine'.memory.Settled number
        · refine ⟨0,
            (completesAt_zero moves).mpr ((settled_iff_completes records open').mp now), ?_⟩
          rintro (_ | step) completes
          · rfl
          · exact absurd ((completesAt_succ moves).mp completes)
              (not_completesAt_of_settled step now)
        · rcases later ended settled now with ⟨step, completes, unique⟩
          refine ⟨step + 1, (completesAt_succ moves).mpr completes, ?_⟩
          rintro (_ | other) completes'
          · exact absurd ((settled_iff_completes records open').mpr
              ((completesAt_zero moves).mp completes')) now
          · rw [unique other ((completesAt_succ moves).mp completes')]
      · rw [moves] at ended
        cases ended
        rw [Memory.Settled, Execution.step_memory_of_exit setup moves] at settled
        exact absurd settled open'

end Machine

section

variable {config : VerifierConfig} {find? : String → Option (MapId × Schema)}
variable {program : Program} {elapsed : String} {verified : VerifiedProgram}

/-- A program that was let through submits or discards every record that it has reserved, and does
so once, before it exits, if its null tests are whole. -/
theorem verified_run_releases
    (passed : Verifier.verify config find? program elapsed = .ok verified)
    (tests : ∀ check ∈ Verifier.checks config find? program, check.1.testsHalf check.2 = false)
    {engine : Engine} {context : PacketContext} (fits : context.Fits)
    (room : StackFrame.size ≤ engine.stackSize % 2 ^ 32 ∨
      context.packet.size + StackFrame.size ≤ 2 ^ 32)
    {store : Store} (provides : store.Provides find? program)
    (clock : Clock) (area : WorkArea) :
    (engine.run clock verified context area store).outcome ≠ .error .unreleasedReservation ∧
      ∀ (code : Word) (final : Machine),
        (engine.machine verified context area store).runWithin (engine.setup clock verified)
          engine.budget = (.ok code, final) →
        ∀ number < final.memory.records.size,
          ∃! step, (engine.machine verified context area store).CompletesAt
            (engine.setup clock verified) step number := by
  rcases Verifier.verify_establishes passed with ⟨rfl, journey, trail, establishes⟩
  have roomy : (engine.scene journey.setting verified context).Roomy := room
  rcases Engine.runs establishes provides fits roomy tests clock area area with
    ⟨walk, twin, _, runs⟩
  cases runs with
  | exits code machine' twin' here there closed least greatest =>
      constructor
      · rw [Engine.outcome_of_exit here closed]
        intro unreleased
        rcases Verdict.ofCode_eq_error unreleased with absurdity | absurdity
        · cases absurdity
        · cases absurdity
      · intro code' final ended number reserved
        cases here.symm.trans ended
        exact Machine.completed_once engine.budget here ⟨reserved, closed number⟩
          fun settled => Nat.not_lt_zero number settled.1
  | fails position address size machine' twin' here there missed =>
      constructor
      · rw [Engine.outcome_of_fault here]
        intro absurdity
        cases absurdity
      · intro code' final ended
        cases here.symm.trans ended
  | spent passed machine' twin' here there length passes =>
      constructor
      · rw [Engine.outcome_of_fault here]
        intro absurdity
        cases absurdity
      · intro code' final ended
        cases here.symm.trans ended

end

/-- A store with one ring buffer, under the name "r". -/
def ringStore : Store :=
  ((Store.create "r" (.ringBuffer 16 4)).run (.forWorkers 1)).2

/-- Reserve a record and submit it. -/
def recordProgram : Program where
  name := "record"
  code := #[⟨0x18, 1, 1, 0, 0⟩, ⟨0, 0, 0, 0, 0⟩, ⟨0xb7, 2, 0, 0, 8⟩, ⟨0xb7, 3, 0, 0, 0⟩,
    ⟨0x85, 0, 0, 0, 8⟩, ⟨0x15, 0, 0, 3, 0⟩, ⟨0xbf, 1, 0, 0, 0⟩, ⟨0xb7, 2, 0, 0, 0⟩,
    ⟨0x85, 0, 0, 0, 9⟩, ⟨0xb7, 0, 0, 0, 2⟩, ⟨0x95, 0, 0, 0, 0⟩]
  bindings := [⟨"r", .ringBuffer, 0, 16⟩]

theorem record_run_releases :
    ∃ verified, Verifier.verify {} ringStore.binding? recordProgram "" = .ok verified ∧
      (({} : Engine).run (.still 0) verified
        { packet := #[1, 2, 3] } (.zeroed 512) ringStore).outcome ≠
        .error .unreleasedReservation ∧
      ∀ (code : Word) (final : Machine),
        (({} : Engine).machine verified { packet := #[1, 2, 3] } (.zeroed 512)
          ringStore).runWithin (({} : Engine).setup (.still 0) verified) 1000000 =
            (.ok code, final) →
        ∀ number < final.memory.records.size,
          ∃! step, (({} : Engine).machine verified { packet := #[1, 2, 3] } (.zeroed 512)
            ringStore).CompletesAt (({} : Engine).setup (.still 0) verified) step number := by
  have accepted : (Verifier.verify {} ringStore.binding? recordProgram "").toOption.any
      (fun _ => true) = true := by decide +kernel
  have provides : ringStore.Provides ringStore.binding? recordProgram :=
    Store.WellFormed.provides ((Store.forWorkers_wellFormed 1).create "r" _).1 recordProgram
  rcases Verifier.accepted_of_any accepted with ⟨verified, passed, _⟩
  exact ⟨verified, passed,
    verified_run_releases passed (by decide +kernel) ⟨rfl, by decide, by decide, by decide⟩
      (.inl (by decide)) provides (.still 0) (.zeroed 512)⟩

/-- The run has ended while it still held a record. -/
def RunResult.leaks (result : RunResult) : Bool :=
  match result.outcome with
  | .error .unreleasedReservation => true
  | _ => false

/-- Reserve a record and test the low half of its address, which is zero although the address is
not; then go on as if there were no record. -/
def leakProgram : Program where
  name := "leak"
  code := #[⟨0x18, 1, 1, 0, 0⟩, ⟨0, 0, 0, 0, 0⟩, ⟨0xb7, 2, 0, 0, 8⟩, ⟨0xb7, 3, 0, 0, 0⟩,
    ⟨0x85, 0, 0, 0, 8⟩, ⟨0x56, 0, 0, 2, 0⟩, ⟨0xb7, 0, 0, 0, 2⟩, ⟨0x95, 0, 0, 0, 0⟩,
    ⟨0xbf, 1, 0, 0, 0⟩, ⟨0xb7, 2, 0, 0, 0⟩, ⟨0x85, 0, 0, 0, 9⟩, ⟨0xb7, 0, 0, 0, 2⟩,
    ⟨0x95, 0, 0, 0, 0⟩]
  bindings := [⟨"r", .ringBuffer, 0, 16⟩]

theorem leak_run_holds_record :
    ∃ verified, Verifier.verify {} ringStore.binding? leakProgram "" = .ok verified ∧
      (({} : Engine).run (.still 0) verified
        { packet := #[1, 2, 3] } (.zeroed 512) ringStore).leaks =
        true :=
  Verifier.accepted_of_any (by decide +kernel)

end PacketFilter
