import PacketFilter.Proofs.Actions
import PacketFilter.Proofs.RecordAccounts

/-!
# Budgets

A budget does nothing to a run but cut it short.  No step looks at it, so the
steps of two runs from the same machine are the same as long as both go on.  A
run that stops by itself within the smaller budget therefore ends alike on the
larger one.  A run that is cut short has carried out as many instructions as
its budget allows, since no step fails for want of budget; whatever these have
done remains, and the records that it still holds are discarded.
-/

namespace PacketFilter

/-- The same program, to be run on another budget. -/
def Setup.withBudget (setup : Setup) (budget : Nat) : Setup :=
  { setup with budget }

/-- No step looks at the budget. -/
theorem Execution.step_withBudget (setup : Setup) (budget : Nat) :
    step (setup.withBudget budget) = step setup :=
  rfl

/-- No step fails for want of budget. -/
theorem Execution.step_ne_budgetExceeded
    {setup : Setup} {machine after : Machine} {fault : Fault}
    (failed : (step setup).run machine = (.error fault, after)) (spent : Nat) :
    fault ≠ .budgetExceeded spent := by
  rintro rfl
  have ended : Ended machine (machine.steps + 1) ((step setup).run machine) := ended_step machine
  rw [failed] at ended
  rcases ended.1 with mishap | invalid
  · cases mishap
  · cases invalid

/-! ## Maps that are not rings -/

namespace Store

variable {store : Store} {id other : MapId} {map : Map}

/-- What is done to a ring leaves every map that is none alone. -/
theorem map?_modifyRing_of_not_ring
    (change : Ring → Ring) (there : store.map? other = some map) (none : map.ring? = none) :
    (store.modifyRing id change).map? other = some map := by
  rcases found : store.map? id with _ | changed
  · rw [modifyRing, onRing, found]
    exact there
  · rw [modifyRing, onRing, found]
    show (store.setMap id (changed.onRing fun ring => ((), change ring)).2).map? other = _
    rw [map?_setMap found]
    split
    case isTrue here =>
      subst here
      cases there.symm.trans found
      rw [Map.onRing]
      rw [Map.ring?] at none
      split
      case h_1 ring held => rw [held] at none; cases none
      case h_2 => rfl
    case isFalse => exact there

/-- Committing records leaves every map that is no ring alone. -/
theorem map?_commitAll_of_not_ring
    (records : List OpenRecord) (none : map.ring? = none) :
    ∀ {store : Store}, store.map? other = some map →
      (records.foldl (fun store record => store.commit record true) store).map? other =
        some map := by
  induction records with
  | nil => exact fun there => there
  | cons record records later =>
      exact fun there => later (map?_modifyRing_of_not_ring _ there none)

end Store

/-! ## Runs -/

namespace Machine

variable {setup : Setup} {machine reached : Machine} {steps : Nat}

theorem after?_withBudget (setup : Setup) (budget steps : Nat) :
    ∀ machine : Machine,
      machine.after? (setup.withBudget budget) steps = machine.after? setup steps := by
  induction steps with
  | zero => exact fun _ => rfl
  | succ steps continues =>
      intro machine
      rw [after?, after?, Execution.step_withBudget]
      split
      · exact continues _
      · rfl

/-- Steps that are not the last leave the rest of the budget to the machine that they lead to. -/
theorem runWithin_of_after? (more : Nat) :
    ∀ {machine : Machine}, machine.after? setup steps = some reached →
      machine.runWithin setup (steps + more) = reached.runWithin setup more := by
  induction steps with
  | zero =>
      intro machine goes
      cases goes
      rw [Nat.zero_add]
  | succ steps continues =>
      intro machine goes
      rw [after?] at goes
      split at goes
      case h_1 next moves =>
        rw [Nat.succ_add, runWithin_of_moves _ moves]
        exact continues goes
      case h_2 => cases goes

/-- Each step has been counted. -/
theorem steps_of_after? :
    ∀ {machine : Machine}, machine.after? setup steps = some reached →
      reached.steps = machine.steps + steps := by
  induction steps with
  | zero =>
      intro machine goes
      cases goes
      rfl
  | succ steps continues =>
      intro machine goes
      rw [after?] at goes
      split at goes
      case h_1 next moves =>
        have counted : Execution.Ended machine (machine.steps + 1)
            ((Execution.step setup).run machine) :=
          Execution.ended_step machine
        rw [moves] at counted
        rw [continues goes, show next.steps = machine.steps + 1 from counted]
        omega
      case h_2 => cases goes

/-- A run that stops by itself ends alike on any larger budget, and not because a budget is
spent. -/
theorem runWithin_of_stops (budget more : Nat) :
    ∀ {machine : Machine}, machine.after? setup steps = none →
      machine.runWithin (setup.withBudget budget) (steps + more) = machine.runWithin setup steps ∧
        ∀ spent, (machine.runWithin setup steps).1 ≠ .error (.budgetExceeded spent) := by
  induction steps with
  | zero => exact fun stops => by cases stops
  | succ steps continues =>
      intro machine stops
      rw [after?] at stops
      rw [Nat.succ_add, runWithin, runWithin, Execution.step_withBudget]
      rcases ran : (Execution.step setup).run machine with ⟨fault | _ | code, after⟩
      · exact ⟨rfl, fun spent exceeded =>
          Execution.step_ne_budgetExceeded ran spent (Except.error.inj exceeded)⟩
      · rw [ran] at stops
        exact continues stops
      · exact ⟨rfl, fun spent exceeded => by cases exceeded⟩

/-- Closing a run neither makes nor hides that its budget was spent. -/
theorem close_eq_budgetExceeded_iff {result : Except Fault Word} {spent : Nat} :
    (machine.close result).1 = .error (.budgetExceeded spent) ↔
      result = .error (.budgetExceeded spent) := by
  cases result with
  | error fault => rfl
  | ok code =>
      rw [close]
      split <;> exact ⟨fun absurdity => (by cases absurdity), fun absurdity => (by cases absurdity)⟩

/-- A run on a smaller budget is one on a larger budget, cut short.  If it is not cut short, both
come to the same end, down to the last register and the count of steps.  If it is, as many
instructions were carried out as the budget allows, and what they did stays; only the records still
held are discarded.  The run on the larger budget goes on from there. -/
theorem run_cut_by_budget (setup : Setup) (machine : Machine) {budget larger : Nat}
    (within : budget ≤ larger) :
    let short := machine.run (setup.withBudget budget)
    let long := machine.run (setup.withBudget larger)
    (short.1 ≠ .error (.budgetExceeded budget) → long = short) ∧
    ∀ spent, short.1 = .error (.budgetExceeded spent) →
      spent = budget ∧
      ∃ reached, machine.after? setup budget = some reached ∧
        reached.steps = machine.steps + budget ∧
        short.2 =
          { reached with
            memory :=
              { reached.memory with
                records := reached.memory.records.map fun _ => none
                store := reached.memory.openRecords.foldl
                  (fun store record => store.commit record true) reached.memory.store } } ∧
        (∀ id map, reached.memory.store.map? id = some map → map.ring? = none →
          short.2.memory.store.map? id = some map) ∧
        machine.runWithin (setup.withBudget larger) larger =
          reached.runWithin (setup.withBudget larger) (larger - budget) := by
  intro short long
  have enough : larger = budget + (larger - budget) := by omega
  rcases goes : machine.after? setup budget with _ | reached
  · have ends : machine.after? (setup.withBudget budget) budget = none :=
      (after?_withBudget setup budget budget machine).trans goes
    have stops := runWithin_of_stops larger (larger - budget) ends
    rw [← enough] at stops
    refine ⟨fun _ => ?_, fun spent exceeded => ?_⟩
    · show close _ _ = close _ _
      exact congrArg (fun ended : Except Fault Word × Machine => ended.2.close ended.1) stops.1
    · exact absurd (close_eq_budgetExceeded_iff.mp exceeded) (stops.2 spent)
  · have cut : machine.runWithin (setup.withBudget budget) budget =
        (.error (.budgetExceeded budget), reached) :=
      runWithin_of_after? 0 ((after?_withBudget setup budget budget machine).trans goes)
    have closed : short = (.error (.budgetExceeded budget),
        { reached with memory := reached.memory.discardOpen }) := by
      show close _ _ = _
      rw [show (setup.withBudget budget).budget = budget from rfl, cut]
      rfl
    have onward := runWithin_of_after? (larger - budget)
      ((after?_withBudget setup larger budget machine).trans goes)
    rw [← enough] at onward
    refine ⟨fun goesOn => absurd (congrArg Prod.fst closed) goesOn, fun spent exceeded => ?_⟩
    rw [closed] at exceeded
    cases exceeded
    refine ⟨rfl, reached, rfl, steps_of_after? goes, ?_, ?_, onward⟩
    · rw [closed, ← Memory.store_discardOpen, ← Memory.discardOpen_eq]
    · intro id map there none
      rw [closed]
      show reached.memory.discardOpen.store.map? id = some map
      rw [Memory.store_discardOpen]
      exact Store.map?_commitAll_of_not_ring _ none there

/-- Reserve a record, write to the stack, and go round in a circle. -/
def circling : Setup where
  code := #[⟨0x18, 1, 1, 0, 0⟩, ⟨0, 0, 0, 0, 0⟩, ⟨0xb7, 2, 0, 0, 8⟩, ⟨0xb7, 3, 0, 0, 0⟩,
    ⟨0x85, 0, 0, 0, 8⟩, ⟨0x7a, 10, 0, -8, 7⟩, ⟨0x05, 0, 0, -1, 0⟩]
  maps := [0]
  attach := .ingress
  clock := .still 0
  budget := 0

/-- A machine about to run with a small stack and one ring buffer. -/
def fresh : Machine :=
  start { packet := #[], scratch := #[], metadata := {}, stack := Array.replicate 8 0,
          store := ringStore }

/-- The ninth step goes round once more; then the run is cut short, while it holds a record. -/
theorem run_cut_by_budget_circling :
    9 ≤ 20 ∧ (fresh.run (circling.withBudget 9)).1 = .error (.budgetExceeded 9) ∧
      ∃ reached, fresh.after? circling 9 = some reached ∧ reached.steps = fresh.steps + 9 ∧
        reached.memory.openRecords = [⟨0, ⟨0, 8⟩⟩] ∧
        (fresh.run (circling.withBudget 9)).2.memory.openRecords = [] ∧
        (fresh.run (circling.withBudget 9)).2.memory.stack = #[7, 0, 0, 0, 0, 0, 0, 0] := by
  have exceeded : (fresh.run (circling.withBudget 9)).1 = .error (.budgetExceeded 9) := by
    decide +kernel
  have holds : ∀ reached ∈ fresh.after? circling 9,
      reached.memory.openRecords = [⟨0, ⟨0, 8⟩⟩] := by decide +kernel
  rcases (run_cut_by_budget circling fresh (show 9 ≤ 20 by decide)).2 9 exceeded with
    ⟨_, reached, goes, counted, _⟩
  exact ⟨by decide, exceeded, reached, goes, counted, holds reached goes, by decide +kernel,
    by decide +kernel⟩

end Machine

end PacketFilter
