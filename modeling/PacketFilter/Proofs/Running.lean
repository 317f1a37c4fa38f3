import PacketFilter.Proofs.Renaming
import PacketFilter.Proofs.Survey

/-!
# Runs of verified programs

A machine that runs a verified program stays at places that the walk has
visited, and the states known there describe it: a step either leads to
another such place, or is the last.  Whatever the second stack holds where
nothing has been written, both machines take the same steps.
-/

namespace PacketFilter

/-- The program that was walked over is the one that runs, and every null test on the trail takes
in the whole pointer. -/
structure Journey.Guides (journey : Journey) (trail : List Walk) (scene : Scene) (setup : Setup) :
    Prop where
  explores : journey.Explores [] trail
  setting : scene.setting = journey.setting
  maps : setup.maps = scene.maps
  code : setup.code = journey.code
  attach : setup.attach = scene.setting.attach
  roomy : scene.Roomy
  whole : ∀ check ∈ journey.checks trail, check.1.testsHalf check.2 = false

/-- An access may fail: the stack holds no frame, or part of a field is loaded somewhere. -/
def Journey.MayMiss (journey : Journey) (trail : List Walk) (scene : Scene) : Prop :=
  ¬ scene.HoldsFrame ∨ ∃ check ∈ journey.checks trail, check.1.loadsPart check.2 = true

/-- The machine, with either stack, stands at a place that was visited. -/
structure Walk.Stands (walk : Walk) (journey : Journey) (trail : List Walk) (scene : Scene)
    (machine : Machine) (twin : Bytes) : Prop where
  listed : walk ∈ trail
  visited : walk.isPruned journey = false
  here : walk.position = machine.position
  represents : ∃ valuation, walk.focus.state.Represents scene valuation machine twin

/-- What a step comes to from a place that was visited. -/
inductive Walk.Steps (walk : Walk) (journey : Journey) (trail : List Walk) (scene : Scene)
    (setup : Setup) (machine : Machine) (twin : Bytes) : Prop
  | moves (next : Walk) (machine' : Machine) (twin' : Bytes)
      (returns : (Execution.step setup).Returns machine twin none machine' twin')
      (stands : next.Stands journey trail scene machine' twin')
      (onward : Relation.TransGen (journey.GoesOn trail) walk next)
  | exits (code : Word) (machine' : Machine)
      (returns : (Execution.step setup).Returns machine twin (some code) machine' twin)
      (closed : ∀ number, machine'.memory.record? number = none)
      (least : scene.setting.attach.verdictRange.1 ≤ code.toNat)
      (greatest : code.toNat ≤ scene.setting.attach.verdictRange.2)
      (sound : machine'.memory.Sound scene)
  | fails (address : Word) (size : Nat) (machine' : Machine)
      (here : (Execution.step setup).run machine =
        (.error (.outOfBounds machine.position address size), machine'))
      (there : (Execution.step setup).run (machine.withStack twin) =
        (.error (.outOfBounds machine.position address size), machine'.withStack twin))
      (missed : journey.MayMiss trail scene)
      (sound : machine'.memory.Sound scene)

section

variable {journey : Journey} {trail : List Walk} {scene : Scene} {setup : Setup}
variable {walk : Walk} {machine : Machine} {twin : Bytes}

/-- A machine described by a place on the trail stands at a place that was visited. -/
theorem Journey.Explores.stands
    {valuation : Nat → Word}
    (explores : journey.Explores [] trail) (listed : walk ∈ trail)
    (here : walk.position = machine.position)
    (represents : walk.focus.state.Represents scene valuation machine twin) :
    ∃ seen : Walk, seen.Stands journey trail scene machine twin ∧
      Relation.ReflTransGen (journey.GoesOn trail) walk seen := by
  rcases explores.settles listed with ⟨seen, there, visited, position, rfl | ⟨resumed, alike⟩⟩
  · exact ⟨walk, ⟨there, visited, here, valuation, represents⟩, .refl⟩
  · rcases represents.alike alike with ⟨valuation', represents'⟩
    exact ⟨seen, ⟨there, visited, position.trans here, valuation', represents'⟩, .single resumed⟩

theorem Execution.run_step
    {instruction : Instruction} {operation : Operation} (machine : Machine)
    (fetched : setup.code[machine.position]? = some instruction)
    (decoded : setup.code.operation? machine.position = some operation) :
    (step setup).run machine =
      (perform setup instruction operation).run { machine with steps := machine.steps + 1 } := by
  simp only [step, Stateful.run_bind, Stateful.run_modify, Stateful.run_get, fetched, decoded]

/-- From a place that was visited, a step leads to another, or is the last. -/
theorem Walk.Stands.steps
    (stands : walk.Stands journey trail scene machine twin)
    (guides : journey.Guides trail scene setup) :
    walk.Steps journey trail scene setup machine twin := by
  rcases stands.represents with ⟨valuation, represents⟩
  rcases guides.explores.visited walk stands.listed stands.visited with
    ⟨focus, places, visits, reaches⟩
  have visited := visits
  rcases visits with ⟨instruction, operation, course, fetched, decoded, passed, lands, made⟩
  have checked := Journey.mem_checks stands.listed stands.visited decoded
  rw [stands.here] at fetched decoded lands made
  rw [← guides.code] at fetched decoded lands made
  rw [← guides.setting] at passed
  have opcode : instruction.decode? setup.code[machine.position + 1]? = some operation := by
    rw [Code.operation?, fetched] at decoded
    exact decoded
  let counted : Machine := { machine with steps := machine.steps + 1 }
  have here : (Execution.step setup).run machine =
      (Execution.perform setup instruction operation).run counted :=
    Execution.run_step machine fetched decoded
  have there : (Execution.step setup).run (machine.withStack twin) =
      (Execution.perform setup instruction operation).run (counted.withStack twin) :=
    Execution.run_step (machine.withStack twin) fetched decoded
  have represents' : walk.focus.state.Represents scene valuation counted twin :=
    represents.moved rfl rfl
  rcases perform_comes represents' guides.roomy
    (guides.explores.within walk stands.listed) guides.maps guides.attach opcode
    (guides.whole _ checked) passed lands with
    ⟨state, valuation', machine', twin', returns, listed, represents⟩ |
      ⟨code, returns, closed, least, greatest⟩ | ⟨⟨address, size, fails, fails'⟩, excused⟩
  · have led : (machine'.position, state) ∈ places := made ▸ listed
    rcases reaches _ led with ⟨next, known, place⟩
    rcases Prod.mk.inj place with ⟨position, rfl⟩
    rcases guides.explores.stands known position represents with ⟨seen, stands', onward⟩
    exact .moves seen machine' twin' ⟨here.trans returns.here, there.trans returns.there⟩ stands'
      (.head' (.edge stands.listed known focus places visited (place ▸ led)) onward)
  · exact .exits code counted ⟨here.trans returns.here, there.trans returns.there⟩ closed least
      greatest represents'.sound
  · refine .fails address size counted (here.trans fails) (there.trans fails') ?_ represents'.sound
    exact excused.imp_right fun part => ⟨_, checked, part⟩

end

/-! ## Whole runs -/

/-- The walk goes on at these places, one after the other. -/
structure Walk.Passes (walk : Walk) (journey : Journey) (trail passed : List Walk) : Prop where
  listed : ∀ place ∈ passed, place ∈ trail
  after : ∀ place ∈ passed, Relation.ReflTransGen (journey.GoesOn trail) walk place
  ordered : passed.Pairwise (Relation.TransGen (journey.GoesOn trail))

/-- What so many steps come to from a place that was visited. -/
inductive Walk.Runs (walk : Walk) (journey : Journey) (trail : List Walk) (scene : Scene)
    (setup : Setup) (machine : Machine) (twin : Bytes) (steps : Nat) : Prop
  | exits (code : Word) (machine' : Machine) (twin' : Bytes)
      (here : machine.runWithin setup steps = (.ok code, machine'))
      (there : (machine.withStack twin).runWithin setup steps =
        (.ok code, machine'.withStack twin'))
      (closed : ∀ number, machine'.memory.record? number = none)
      (least : scene.setting.attach.verdictRange.1 ≤ code.toNat)
      (greatest : code.toNat ≤ scene.setting.attach.verdictRange.2)
      (sound : machine'.memory.Sound scene)
  | fails (position : Nat) (address : Word) (size : Nat) (machine' : Machine) (twin' : Bytes)
      (here : machine.runWithin setup steps =
        (.error (.outOfBounds position address size), machine'))
      (there : (machine.withStack twin).runWithin setup steps =
        (.error (.outOfBounds position address size), machine'.withStack twin'))
      (missed : journey.MayMiss trail scene)
      (sound : machine'.memory.Sound scene)
  | spent (passed : List Walk) (machine' : Machine) (twin' : Bytes)
      (here : machine.runWithin setup steps = (.error (.budgetExceeded setup.budget), machine'))
      (there : (machine.withStack twin).runWithin setup steps =
        (.error (.budgetExceeded setup.budget), machine'.withStack twin'))
      (length : passed.length = steps) (passes : walk.Passes journey trail passed)
      (sound : machine'.memory.Sound scene)

section

variable {journey : Journey} {trail : List Walk} {scene : Scene} {setup : Setup}
variable {walk next : Walk} {machine machine' : Machine} {twin twin' : Bytes}

theorem Walk.Passes.cons
    {passed : List Walk}
    (passes : next.Passes journey trail passed) (listed : walk ∈ trail)
    (onward : Relation.TransGen (journey.GoesOn trail) walk next) :
    walk.Passes journey trail (walk :: passed) where
  listed := List.forall_mem_cons.mpr ⟨listed, passes.listed⟩
  after := List.forall_mem_cons.mpr
    ⟨.refl, fun place later => onward.to_reflTransGen.trans (passes.after place later)⟩
  ordered := List.pairwise_cons.mpr
    ⟨fun place later => onward.trans_left (passes.after place later), passes.ordered⟩

/-- Without a way back there are only so many places to pass. -/
theorem Walk.Passes.length_le
    {passed : List Walk}
    (passes : walk.Passes journey trail passed)
    (onward : ∀ place, ¬ Relation.TransGen (journey.GoesOn trail) place place) :
    passed.length ≤ trail.length := by
  have nodup : passed.Nodup := by
    refine passes.ordered.imp fun leads same => ?_
    subst same
    exact onward _ leads
  exact (nodup.subperm passes.listed).length_le

theorem runWithin_of_moves
    (steps : Nat) (moves : (Execution.step setup).run machine = (.ok none, machine')) :
    machine.runWithin setup (steps + 1) = machine'.runWithin setup steps := by
  rw [Machine.runWithin, moves]

/-- The run goes on as it does after a step. -/
theorem Walk.Runs.after
    {steps : Nat}
    (runs : next.Runs journey trail scene setup machine' twin' steps) (listed : walk ∈ trail)
    (returns : (Execution.step setup).Returns machine twin none machine' twin')
    (onward : Relation.TransGen (journey.GoesOn trail) walk next) :
    walk.Runs journey trail scene setup machine twin (steps + 1) := by
  have here' := runWithin_of_moves steps returns.here
  have there' := runWithin_of_moves steps returns.there
  cases runs with
  | exits code final twin'' here there closed least greatest sound =>
      exact .exits code final twin'' (here'.trans here) (there'.trans there) closed least greatest
        sound
  | fails position address size final twin'' here there missed sound =>
      exact .fails position address size final twin'' (here'.trans here) (there'.trans there) missed
        sound
  | spent passed final twin'' here there length passes sound =>
      exact .spent (walk :: passed) final twin'' (here'.trans here) (there'.trans there)
        (by rw [List.length_cons, length]) (passes.cons listed onward) sound

/-- From a place that was visited, every run stays at such places. -/
theorem Walk.Stands.runs
    (guides : journey.Guides trail scene setup) (steps : Nat) :
    ∀ {walk : Walk} {machine : Machine} {twin : Bytes},
      walk.Stands journey trail scene machine twin →
        walk.Runs journey trail scene setup machine twin steps := by
  induction steps with
  | zero =>
      intro walk machine twin stands
      rcases stands.represents with ⟨valuation, represents⟩
      refine .spent [] machine twin rfl rfl rfl ⟨?_, ?_, .nil⟩ represents.sound
      · exact fun _ listed => by cases listed
      · exact fun _ listed => by cases listed
  | succ steps continues =>
      intro walk machine twin stands
      cases stands.steps guides with
      | moves next machine' twin' returns stands' onward =>
          exact (continues stands').after stands.listed returns onward
      | exits code machine' returns closed least greatest sound =>
          refine .exits code machine' twin ?_ ?_ closed least greatest sound
          · rw [Machine.runWithin, returns.here]
          · rw [Machine.runWithin, returns.there]
      | fails address size machine' here there missed sound =>
          refine .fails machine.position address size machine' twin ?_ ?_ missed sound
          · rw [Machine.runWithin, here]
          · rw [Machine.runWithin, there]

end

end PacketFilter
