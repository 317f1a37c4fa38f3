import PacketFilter.Proofs.RegisterWrites

/-!
# Counter steps

The analysis of a counter looks for the instructions of a loop that may write
it and demands that each adds a constant to it, all of them of one sign.  So
the other instructions leave the counter alone, and a way that comes by one of
these takes the counter at least as far as the least of the constants.
-/

namespace PacketFilter

/-! ## Steps of one sign -/

/-- The change is none, or goes in the direction of the step and at least as far. -/
def KeepsUp (step change : Int) : Prop :=
  change = 0 ∨ change.sign = step.sign ∧ step.natAbs ≤ change.natAbs

section

variable {step first second : Int} {changes : List Int}

theorem keepsUp_add
    (moves : step ≠ 0) (sign : first.sign = step.sign) (far : step.natAbs ≤ first.natAbs)
    (follows : KeepsUp step second) :
    (first + second).sign = step.sign ∧ step.natAbs ≤ (first + second).natAbs := by
  rcases follows with rfl | ⟨sign', far'⟩
  · rw [Int.add_zero]
    exact ⟨sign, far⟩
  · rcases Int.lt_or_gt_of_ne moves with down | up
    · rw [Int.sign_eq_neg_one_of_neg down, Int.sign_eq_neg_one_iff_neg] at sign sign' ⊢
      omega
    · rw [Int.sign_eq_one_of_pos up, Int.sign_eq_one_iff_pos] at sign sign' ⊢
      omega

/-- Changes that keep up with a step do so together, and one that is not zero is enough for the
whole to go that far. -/
theorem keepsUp_sum (moves : step ≠ 0) (follow : ∀ change ∈ changes, KeepsUp step change) :
    KeepsUp step changes.sum ∧ ((∃ change ∈ changes, change ≠ 0) → changes.sum ≠ 0) := by
  induction changes with
  | nil =>
      refine ⟨.inl rfl, ?_⟩
      rintro ⟨change, listed, _⟩
      cases listed
  | cons change rest continues =>
      rw [List.forall_mem_cons] at follow
      rcases continues follow.2 with ⟨later, shows⟩
      rw [List.sum_cons]
      rcases follow.1 with rfl | ⟨sign, far⟩
      · rw [Int.zero_add]
        refine ⟨later, fun ⟨change, listed, nonzero⟩ => ?_⟩
        rcases List.mem_cons.mp listed with rfl | among
        · exact absurd rfl nonzero
        · exact shows ⟨change, among, nonzero⟩
      · have both := keepsUp_add moves sign far later
        refine ⟨.inr both, fun _ none => ?_⟩
        rw [none, Int.sign_zero] at both
        exact moves (Int.sign_eq_zero_iff_zero.mp both.1.symm)

end

/-! ## What the analysis of a counter finds -/

namespace Code

variable {code : Code} {body sites : List Nat} {register : UInt8} {least first second : Int}

theorem lesserStep?_eq_some (found : lesserStep? first second = some least) :
    (first.sign = least.sign ∧ least.natAbs ≤ first.natAbs) ∧
      second.sign = least.sign ∧ least.natAbs ≤ second.natAbs := by
  unfold lesserStep? at found
  split at found
  case isTrue => cases found
  case isFalse same =>
    rw [not_not] at same
    split at found
    case isTrue less =>
      cases found
      exact ⟨⟨same, Nat.le_of_lt less⟩, rfl, Nat.le_refl _⟩
    case isFalse least =>
      cases found
      exact ⟨⟨rfl, Nat.le_refl _⟩, same.symm, Nat.not_lt.mp least⟩

/-- No step has another sign than the least one or is less. -/
theorem leastStep?_eq_some {steps : List Int} (found : leastStep? steps = some least) :
    ∀ step ∈ steps, step.sign = least.sign ∧ least.natAbs ≤ step.natAbs := by
  cases steps with
  | nil => cases found
  | cons first rest =>
      rw [leastStep?] at found
      induction rest generalizing first with
      | nil =>
          cases found
          exact List.forall_mem_singleton.mpr ⟨rfl, Nat.le_refl _⟩
      | cons second rest continues =>
          rw [List.foldlM_cons] at found
          rcases Option.bind_eq_some_iff.mp found with ⟨lesser, chosen, found⟩
          rcases lesserStep?_eq_some chosen with ⟨⟨sign, near⟩, sign', near'⟩
          rcases List.forall_mem_cons.mp (continues lesser found) with ⟨here, later⟩
          exact List.forall_mem_cons.mpr ⟨⟨sign.trans here.1, here.2.trans near⟩,
            List.forall_mem_cons.mpr ⟨⟨sign'.trans here.1, here.2.trans near'⟩, later⟩⟩

theorem exists_result_of_mapM
    {α β : Type} {f : α → Option β} {items : List α} {results : List β}
    (made : items.mapM f = some results) :
    ∀ item ∈ items, ∃ result ∈ results, f item = some result := by
  induction items generalizing results with
  | nil => exact fun item listed => by cases listed
  | cons item rest continues =>
      rw [List.mapM_cons] at made
      rcases Option.bind_eq_some_iff.mp made with ⟨first, here, made⟩
      rcases Option.bind_eq_some_iff.mp made with ⟨later, there, made⟩
      cases made
      refine List.forall_mem_cons.mpr ⟨⟨first, List.mem_cons_self, here⟩, fun other among => ?_⟩
      rcases continues there other among with ⟨result, listed, same⟩
      exact ⟨result, List.mem_cons_of_mem _ listed, same⟩

/-- Where the body may write the counter, it steps it, and no step is less than the least one or has
another sign. -/
theorem counterSteps?_eq_some (found : code.counterSteps? body register = some (least, sites)) :
    least ≠ 0 ∧ (∀ slot, slot ∈ sites ↔ slot ∈ body ∧ code.writesRegister slot register = true) ∧
      ∀ site ∈ sites, ∃ step, code.stepAt? register site = some step ∧
        step.sign = least.sign ∧ least.natAbs ≤ step.natAbs := by
  rcases Option.bind_eq_some_iff.mp found with ⟨steps, stepped, found⟩
  rcases Option.bind_eq_some_iff.mp found with ⟨_, chosen, made⟩
  cases made
  have each : ∀ site ∈ body.filter fun slot => code.writesRegister slot register,
      ∃ step, code.stepAt? register site = some step ∧
        step.sign = least.sign ∧ least.natAbs ≤ step.natAbs := by
    intro site among
    rcases exists_result_of_mapM stepped site among with ⟨step, listed, steps⟩
    exact ⟨step, steps, leastStep?_eq_some chosen step listed⟩
  refine ⟨fun zero => ?_, fun slot => List.mem_filter, each⟩
  -- There is a site, and its step has the sign of the least one.
  cases sites : body.filter fun slot => code.writesRegister slot register with
  | nil =>
      rw [sites] at stepped
      cases stepped
      cases chosen
  | cons site rest =>
      rcases each site (sites ▸ List.mem_cons_self) with ⟨step, steps, sign, _⟩
      rw [zero, Int.sign_zero] at sign
      exact ne_zero_of_stepAt? steps (Int.sign_eq_zero_iff_zero.mp sign)

/-! ## What a way changes -/

variable {counter : RegisterName} {step : Int}

/-- By how much the instruction at a slot changes the register when it changes it by a constant. -/
def changeAt (code : Code) (register : UInt8) (slot : Nat) : Int :=
  (code.stepAt? register slot).getD 0

theorem natAbs_changeAt_le (code : Code) (register : UInt8) (slot : Nat) :
    (code.changeAt register slot).natAbs ≤ 2 ^ 31 := by
  rw [changeAt]
  cases steps : code.stepAt? register slot with
  | none => decide
  | some step =>
      rcases stepAt?_eq_some steps with ⟨_, _, _, counts⟩
      exact Instruction.natAbs_le_of_counterStep? counts

theorem writesRegister_of_stepAt? {slot : Nat} (steps : code.stepAt? register slot = some step) :
    code.writesRegister slot register = true := by
  rcases stepAt?_eq_some steps with ⟨instruction, fetched, rfl, counts⟩
  rw [writesRegister, fetched, Option.map_some, Option.getD_some, Instruction.writtenRegisters,
    (Instruction.arithmetic_of_counterStep? counts).1]
  exact List.contains_iff_mem.mpr (List.mem_singleton_self _)

/-- Every instruction of the body leaves the counter alone or adds a constant to it. -/
theorem WellFormed.changes_counter
    (wellFormed : code.WellFormed) (known : ∀ slot ∈ body, slot ∈ code.starts)
    (names : RegisterName.ofNumber? register = some counter)
    (counts : code.counterSteps? body register = some (step, sites)) :
    ∀ slot ∈ body, code.changeAt register slot = 0 ∧ code.Spares slot counter ∨
      ((code.changeAt register slot).sign = step.sign ∧
        step.natAbs ≤ (code.changeAt register slot).natAbs) ∧
        code.Adds slot counter (code.changeAt register slot) := by
  intro slot listed
  rcases counterSteps?_eq_some counts with ⟨_, isSite, each⟩
  rw [changeAt]
  cases steps : code.stepAt? register slot with
  | none =>
      refine .inl ⟨rfl, wellFormed.spares (known slot listed) names ?_⟩
      by_contra writes
      rw [Bool.not_eq_false] at writes
      rcases each slot ((isSite slot).mpr ⟨listed, writes⟩) with ⟨change, steps', _⟩
      cases steps.symm.trans steps'
  | some change =>
      have site := (isSite slot).mpr ⟨listed, writesRegister_of_stepAt? steps⟩
      rcases each slot site with ⟨_, steps', keepsUp⟩
      cases steps.symm.trans steps'
      exact .inr ⟨keepsUp, wellFormed.adds (known slot listed) names steps⟩

/-- A way through the body that passes one of the sites changes the counter as far as the least
step. -/
theorem WellFormed.changes_along
    {slots : List Nat} (wellFormed : code.WellFormed) (known : ∀ slot ∈ body, slot ∈ code.starts)
    (names : RegisterName.ofNumber? register = some counter)
    (counts : code.counterSteps? body register = some (step, sites))
    (inside : ∀ slot ∈ slots, slot ∈ body) (passes : ∃ site ∈ sites, site ∈ slots) :
    (∃ slot ∈ slots, code.changeAt register slot ≠ 0) ∧
      (slots.map (code.changeAt register)).sum.sign = step.sign ∧
      step.natAbs ≤ (slots.map (code.changeAt register)).sum.natAbs := by
  rcases counterSteps?_eq_some counts with ⟨moves, _, each⟩
  have changes := wellFormed.changes_counter known names counts
  have follow : ∀ change ∈ slots.map (code.changeAt register), KeepsUp step change := by
    intro change listed
    rcases List.mem_map.mp listed with ⟨slot, among, rfl⟩
    exact (changes slot (inside slot among)).imp And.left And.left
  have nonzero : ∃ slot ∈ slots, code.changeAt register slot ≠ 0 := by
    rcases passes with ⟨site, among, passed⟩
    rcases each site among with ⟨change, steps, _⟩
    refine ⟨site, passed, ?_⟩
    rw [changeAt, steps]
    exact ne_zero_of_stepAt? steps
  rcases keepsUp_sum moves follow with ⟨keepsUp, shows⟩
  refine ⟨nonzero, keepsUp.resolve_left (shows ?_)⟩
  rcases nonzero with ⟨slot, passed, changed⟩
  exact ⟨_, List.mem_map_of_mem passed, changed⟩

end Code

/-! ## Runs -/

/-- The machine carries out the instructions at the slots, one after the other, and then is the
other machine. -/
inductive Machine.Passes (setup : Setup) : Machine → List Nat → Machine → Prop
  | done (machine : Machine) : Passes setup machine [] machine
  | goes {machine next final : Machine} {slots : List Nat}
      (steps : (Execution.step setup).run machine = (.ok none, next))
      (onward : Passes setup next slots final) :
      Passes setup machine (machine.position :: slots) final

section

variable {setup : Setup} {machine final : Machine} {slots : List Nat}

/-- A register that every instruction on the way leaves alone, or adds a constant to, changes by the
sum of the constants. -/
theorem Machine.Passes.register_eq
    {counter : RegisterName} {change : Nat → Int} (passes : machine.Passes setup slots final)
    (each : ∀ slot ∈ slots, change slot = 0 ∧ setup.code.Spares slot counter ∨
      setup.code.Adds slot counter (change slot)) :
    final.register counter =
      machine.register counter + BitVec.ofInt 64 (slots.map change).sum := by
  induction passes with
  | done machine => exact (BitVec.add_zero _).symm
  | @goes machine next final slots steps onward continues =>
      rw [List.forall_mem_cons] at each
      have here : next.register counter =
          machine.register counter + BitVec.ofInt 64 (change machine.position) := by
        rcases each.1 with ⟨none, spares⟩ | adds
        · have same := spares setup machine rfl rfl
          rw [steps] at same
          rw [none]
          exact same.trans (BitVec.add_zero _).symm
        · rcases adds setup machine rfl rfl with ⟨next', steps', adds⟩
          cases steps.symm.trans steps'
          exact adds
      rw [continues each.2, here, List.map_cons, List.sum_cons, BitVec.ofInt_add, BitVec.add_assoc]

/-- What no instruction on the way changes stays the same all the way. -/
theorem Machine.Passes.limit_eq
    {limit : Machine → Word} (passes : machine.Passes setup slots final)
    (each : ∀ slot ∈ slots, ∀ machine : Machine, machine.position = slot →
      limit ((Execution.step setup).run machine).2 = limit machine) :
    limit final = limit machine := by
  induction passes with
  | done machine => rfl
  | @goes machine next final slots steps onward continues =>
      rw [List.forall_mem_cons] at each
      have here := each.1 machine rfl
      rw [steps] at here
      exact (continues each.2).trans here

end

end PacketFilter
