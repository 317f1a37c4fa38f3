import PacketFilter.Proofs.Trail

/-!
# What verification has established

The walk over a program that is let through finishes, so its trail explores
everything that can be reached from the first instruction.  The maps that the
program declares are those that were found under their names, in order.
-/

namespace PacketFilter

/-! ## Going on from place to place -/

/-- The walk goes on from one place at another, along an edge or where a state like its own has
been seen. -/
inductive Journey.GoesOn (journey : Journey) (trail : List Walk) (walk next : Walk) : Prop
  | edge (here : walk ∈ trail) (there : next ∈ trail) (focus : Focus) (places : List Place)
      (visits : walk.Visits journey focus places) (led : next.place ∈ places)
  | resumes (here : walk ∈ trail) (there : next ∈ trail) (resumes : walk.Resumes journey next)

/-- The operations checked on the trail, with what was known at each. -/
def Journey.checks (journey : Journey) (trail : List Walk) : List (Focus × Operation) :=
  (trail.filter fun walk => !walk.isPruned journey).filterMap fun walk =>
    (journey.code.operation? walk.position).map (walk.focus, ·)

theorem Journey.mem_checks
    {journey : Journey} {trail : List Walk} {walk : Walk} {operation : Operation}
    (here : walk ∈ trail) (visited : walk.isPruned journey = false)
    (decoded : journey.code.operation? walk.position = some operation) :
    (walk.focus, operation) ∈ journey.checks trail := by
  refine List.mem_filterMap.mpr ⟨walk, List.mem_filter.mpr ⟨here, ?_⟩, ?_⟩
  · rw [visited]
    rfl
  · rw [decoded]
    rfl

/-- From every place on the trail the walk goes on at one that is visited. -/
theorem Journey.Explores.settles
    {journey : Journey} {trail : List Walk} {walk : Walk}
    (explores : journey.Explores [] trail) (here : walk ∈ trail) :
    ∃ seen ∈ trail, seen.isPruned journey = false ∧ seen.position = walk.position ∧
      (walk = seen ∨ journey.GoesOn trail walk seen ∧
        walk.focus.state.isAlike seen.focus.state = true) := by
  cases ends : walk.isPruned journey with
  | false => exact ⟨walk, here, ends, rfl, .inl rfl⟩
  | true =>
      rcases explores.pruned walk here ends with ⟨seen, there, resumes⟩
      exact ⟨seen, there, resumes.visited, resumes.here,
        .inr ⟨.resumes here there resumes, resumes.alike⟩⟩

theorem Walk.start_within (journey : Journey) (log : Log) : (start journey log).Within := by
  rintro place (_ | ⟨_, absurdity⟩)
  · exact AbstractState.entry_within 0
  · cases absurdity

theorem Walk.start_seenAt (journey : Journey) (log : Log) (position : Nat) :
    (start journey log).seenAt position = [] := by
  rw [seenAt, start, Array.getElem?_replicate]
  split
  · rfl
  · rfl

theorem Walk.start_remembers (journey : Journey) (log : Log) :
    (start journey log).Remembers journey [] := by
  intro position state kept
  rw [start_seenAt] at kept
  cases kept

namespace Verifier

variable {config : VerifierConfig} {find? : String → Option (MapId × Schema)}
variable {program : Program} {elapsed : String} {verified : VerifiedProgram}

/-- The walk over a program that is well formed, and what stays the same during it. -/
def survey? (config : VerifierConfig) (find? : String → Option (MapId × Schema))
    (program : Program) : Option (Journey × List Walk) :=
  match prepare find? config.limits program with
  | .error _ => none
  | .ok (journey, _) =>
    let log : Log := { level := config.logLevel, sizeLimit := config.logSize }
    some (journey, (Walk.start journey log).trail journey config.limits.complexity)

/-- The operations checked in the walk over a program, with what was known at each. -/
def checks (config : VerifierConfig) (find? : String → Option (MapId × Schema))
    (program : Program) : List (Focus × Operation) :=
  match survey? config find? program with
  | none => []
  | some (journey, trail) => journey.checks trail

/-- The walk over a program comes back to where it has gone on from. -/
def ComesBack (config : VerifierConfig) (find? : String → Option (MapId × Schema))
    (program : Program) : Prop :=
  ∃ journey trail walk, survey? config find? program = some (journey, trail) ∧
    Relation.TransGen (journey.GoesOn trail) walk walk

end Verifier

/-- The bindings of the program were resolved to the maps, which have the schemas. -/
def Program.Binds (program : Program) (find? : String → Option (MapId × Schema))
    (maps : List MapId) (schemas : Array Schema) : Prop :=
  ∀ (index : Nat) (schema : Schema), schemas[index]? = some schema →
    ∃ binding ∈ program.bindings, ∃ id, maps[index]? = some id ∧
      find? binding.name = some (id, schema)

/-- What verification establishes of a program. -/
structure Verifier.Establishes (config : VerifierConfig)
    (find? : String → Option (MapId × Schema)) (verified : VerifiedProgram) (journey : Journey)
    (trail : List Walk) : Prop where
  survey : survey? config find? verified.program = some (journey, trail)
  code : journey.code = verified.program.code
  attach : journey.setting.attach = verified.program.attach
  binds : verified.program.Binds find? verified.maps journey.setting.schemas
  explores : journey.Explores [] trail
  starts : ∃ walk ∈ trail, walk.place = (0, .entry)

namespace Verifier

theorem resolveBinding_eq_ok
    {binding : MapBinding} {found : MapId × Schema}
    (resolved : resolveBinding find? binding = .ok found) :
    find? binding.name = some found := by
  unfold resolveBinding at resolved
  split at resolved
  · cases resolved
  · split at resolved
    · cases resolved
      assumption
    · cases resolved

/-- What the checks before the walk hand to it. -/
structure Prepares (find? : String → Option (MapId × Schema)) (limits : Limits)
    (program : Program) (journey : Journey) (maps : List MapId) : Prop where
  code : journey.code = program.code
  attach : journey.setting.attach = program.attach
  limits : journey.limits = limits
  binds : program.Binds find? maps journey.setting.schemas

theorem prepares_of_prepare
    {limits : Limits} {journey : Journey} {maps : List MapId}
    (prepared : prepare find? limits program = .ok (journey, maps)) :
    Prepares find? limits program journey maps := by
  simp only [prepare] at prepared
  rcases Checked.bind_eq_ok.mp prepared with ⟨_, _, prepared⟩
  rcases Checked.bind_eq_ok.mp prepared with ⟨found, resolved, prepared⟩
  rcases Checked.bind_eq_ok.mp prepared with ⟨_, _, prepared⟩
  rcases Checked.bind_eq_ok.mp prepared with ⟨loops, _, made⟩
  cases made
  refine ⟨rfl, rfl, rfl, fun index schema declared => ?_⟩
  rw [List.getElem?_toArray, List.getElem?_map] at declared
  rcases Option.map_eq_some_iff.mp declared with ⟨entry, there, rfl⟩
  rcases Checked.exists_item_of_mapM resolved (List.mem_of_getElem? there) with
    ⟨binding, member, known⟩
  refine ⟨binding, member, entry.1, ?_, resolveBinding_eq_ok known⟩
  rw [List.getElem?_map, there]
  rfl

theorem run_ne_continue (journey : Journey) (budget : Nat) :
    ∀ {walk next : Walk}, walk.run journey budget ≠ .continue next := by
  induction budget with
  | zero =>
      intro walk next same
      cases same
  | succ budget continues =>
      intro walk next same
      rw [Walk.run] at same
      split at same
      case h_1 => exact continues same
      case h_2 ended => exact ended next same

theorem verify_establishes
    (passed : verify config find? program elapsed = .ok verified) :
    verified.program = program ∧
      ∃ journey trail, Establishes config find? verified journey trail := by
  simp only [verify] at passed
  cases prepared : prepare find? config.limits program with
  | error rejection =>
      rw [prepared] at passed
      cases passed
  | ok result =>
      rcases result with ⟨journey, maps⟩
      rw [prepared] at passed
      have prepares := prepares_of_prepare prepared
      dsimp only at passed
      split at passed
      case h_1 => cases passed
      case h_2 walk continues => exact absurd continues (run_ne_continue _ _)
      case h_3 final finished =>
        cases passed
        rcases Walk.run_explores journey config.limits.complexity finished
          (Walk.start_within journey _) (Walk.start_remembers journey _) with ⟨explores, reaches⟩
        refine ⟨rfl, journey, _, ⟨?_, prepares.code, prepares.attach, prepares.binds, explores,
          reaches _ List.mem_cons_self⟩⟩
        rw [survey?, prepared]

/-- A program is let through when what verification makes of it passes a test. -/
theorem accepted_of_any
    {test : VerifiedProgram → Bool}
    (met : (verify config find? program elapsed).toOption.any test = true) :
    ∃ verified, verify config find? program elapsed = .ok verified ∧ test verified = true := by
  cases passed : verify config find? program elapsed with
  | error rejection =>
      rw [passed] at met
      cases met
  | ok verified =>
      rw [passed] at met
      exact ⟨verified, rfl, met⟩

end Verifier

end PacketFilter
