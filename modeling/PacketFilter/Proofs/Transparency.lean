import PacketFilter.Proofs.Pruning
import PacketFilter.Proofs.Survey

/-!
# Keeping states does not change what verification comes to

Where no states are kept nothing is pruned, and a walk that ends within its
budget has gone through the whole exploration.  A walk that keeps states, and
prunes at them, then ends as that exploration does: the program is let through
by both, or turned away by both at the same place and for the same reason.
-/

namespace PacketFilter

variable {journey : Journey} {walk : Walk}

/-- So many states are kept for one instruction. -/
def Journey.keeping (journey : Journey) (states : Nat) : Journey :=
  { journey with limits := { journey.limits with states } }

/-! ## Walks that keep nothing -/

namespace Walk

theorem exploredAfter_eq_of_states (keeps : journey.limits.states = 0) :
    walk.exploredAfter journey = walk.explored := by
  unfold exploredAfter remember
  rw [keeps]
  exact ite_self _

theorem isPruned_eq_false (none : ∀ position, walk.seenAt position = []) :
    walk.isPruned journey = false := by
  have unseen : walk.hasSeen = false := congrArg (List.any · _) (none walk.position)
  rw [isPruned, unseen, Bool.and_false]

/-- A walk that keeps nothing has gone through the exploration, unless its budget runs out. -/
theorem ends_of_run (keeps : journey.limits.states = 0) (budget : Nat) :
    ∀ {walk : Walk}, (∀ position, walk.seenAt position = []) →
      (∀ position, ¬ (walk.run journey budget).EndsAs
        (.rejected position .complexityExceeded)) →
        ∃ steps ≤ budget, ∃ ending,
          journey.Ends walk.focus.lastIdentity (walk.place :: walk.aside) steps ending := by
  induction budget with
  | zero =>
      intro walk _ complete
      exact absurd (.rejected _ _ rfl) (complete walk.position)
  | succ budget continues =>
      intro walk none complete
      rcases step_meets journey walk with ⟨pruned, _⟩ | ⟨_, meets⟩
      · rw [isPruned_eq_false none] at pruned
        cases pruned
      · rw [exploredAfter_eq_of_states keeps] at meets
        cases made : journey.expand walk.focus walk.position with
        | error cause => exact ⟨1, Nat.succ_pos _, _, .rejected _ made⟩
        | ok found =>
            rw [made] at meets
            rw [run] at complete
            dsimp only [bind, Except.bind] at meets
            generalize left : found.2 ++ walk.aside = places at meets
            generalize walk.step journey = progress at meets complete
            cases meets with
            | finished _ final =>
                refine ⟨1, Nat.succ_pos _, .accepted, .expanded made ?_⟩
                rw [left]
                exact .accepted _
            | «continue» next opens handed same =>
                have none' (position : Nat) : next.seenAt position = [] := by
                  rw [seenAt, same]
                  exact none position
                rcases continues none' complete with ⟨steps, le, ending, ends⟩
                refine ⟨steps + 1, Nat.succ_le_succ le, ending, .expanded made ?_⟩
                rwa [left, ← opens, ← handed]

end Walk

/-- What an iteration comes to does not depend on how many states are kept. -/
theorem Journey.Ends.keep
    {last steps : Nat} {places : List Place} {ending : Ending}
    (ends : journey.Ends last places steps ending) (states : Nat) :
    (journey.keeping states).Ends last places steps ending := by
  induction ends with
  | accepted last => exact .accepted last
  | rejected rest found => exact .rejected rest found
  | expanded made _ continues => exact .expanded made continues

/-! ## From the first instruction -/

theorem Place.entry_within (position : Nat) : Place.Within 0 (position, .entry) :=
  ⟨.start, rfl, rfl, rfl, .entry Alignment.start.zero⟩

theorem Journey.Accounts.start (journey : Journey) (log : Log) :
    journey.Accounts 0 (Walk.start journey log).explored [(0, .entry)] where
  within := List.forall_mem_cons.mpr ⟨Place.entry_within 0, fun _ listed => by cases listed⟩
  seen position state seen := by
    have none := Walk.start_seenAt journey log position
    rw [Walk.seenAt] at none
    rw [none] at seen
    cases seen

/-- A walk ends as the exploration from the first instruction does. -/
theorem Walk.start_ends
    {steps budget : Nat} {ending : Ending} (log : Log)
    (ends : journey.Ends 0 [(0, .entry)] steps ending) (le : steps ≤ budget) :
    ((start journey log).run journey budget).EndsAs ending :=
  run_ends journey budget (.start journey log)
    ⟨0, (Journey.Accounts.start journey log).within, ends⟩ le

/-- A walk that keeps states ends as the one does that keeps none, unless the budget of that one
runs out. -/
theorem Walk.start_ends_alike
    (keeps : journey.limits.states = 0) (log log' : Log) (budget states : Nat)
    (complete : ∀ position, ¬ ((start journey log).run journey budget).EndsAs
      (.rejected position .complexityExceeded)) :
    ∃ ending, ((start journey log).run journey budget).EndsAs ending ∧
      ((start (journey.keeping states) log').run (journey.keeping states) budget).EndsAs
        ending := by
  rcases ends_of_run keeps budget (start_seenAt journey log) complete with
    ⟨steps, le, ending, ends⟩
  exact ⟨ending, start_ends log ends le, start_ends log' (ends.keep states) le⟩

/-! ## Verification -/

/-- Where and for what reason the program is turned away, if it is. -/
def Ending.rejection? : Ending → Option (Option Nat × RejectionReason)
  | accepted => none
  | rejected position reason => some (some position, reason)

/-- Programs are verified with so many states kept for one instruction. -/
def VerifierConfig.keeping (config : VerifierConfig) (states : Nat) : VerifierConfig :=
  { config with limits := { config.limits with states } }

namespace Verifier

/-- Where and for what reason verification turned the program away, if it did. -/
def rejection? : Except Rejection VerifiedProgram → Option (Option Nat × RejectionReason)
  | .ok _ => none
  | .error rejection => some (rejection.position?, rejection.reason)

variable {config : VerifierConfig} {find? : String → Option (MapId × Schema)}
variable {program : Program} {elapsed : String}

/-- The checks that come before the walk do not depend on how many states are kept. -/
theorem prepare_keeping
    (config : VerifierConfig) (find? : String → Option (MapId × Schema)) (program : Program)
    (states : Nat) :
    prepare find? (config.keeping states).limits program =
      (prepare find? config.limits program).map fun found =>
        (found.1.keeping states, found.2) := by
  have length : (config.keeping states).limits.length = config.limits.length := rfl
  rw [prepare, prepare, length]
  dsimp only [bind, Except.bind]
  cases program.code.checkStructure config.limits.length with
  | error rejection => rfl
  | ok _ =>
      dsimp only
      cases program.bindings.mapM (resolveBinding find?) with
      | error rejection => rfl
      | ok maps =>
          dsimp only
          cases program.code.checkFallThrough (Graph.ofCode program.code) with
          | error rejection => rfl
          | ok _ =>
              dsimp only
              cases (Graph.ofCode program.code).countedLoops program.code with
              | error rejection => rfl
              | ok loops => rfl

theorem rejection?_of_error
    {rejection : Rejection} (refused : prepare find? config.limits program = .error rejection) :
    rejection? (verify config find? program elapsed) =
      some (rejection.position?, rejection.reason) := by
  rw [verify, refused]
  rfl

/-- Verification ends as the walk does. -/
theorem rejection?_of_endsAs
    {maps : List MapId} {ending : Ending}
    (prepared : prepare find? config.limits program = .ok (journey, maps))
    (ends : ((Walk.start journey { level := config.logLevel, sizeLimit := config.logSize }).run
      journey config.limits.complexity).EndsAs ending) :
    rejection? (verify config find? program elapsed) = ending.rejection? := by
  rw [verify, prepared]
  dsimp only
  generalize Walk.run journey _ _ = progress at ends
  cases ends with
  | accepted final => rfl
  | @rejected log position cause cause' same =>
      rw [Ending.rejection?, ← same]
      rfl

end Verifier

/-- Pruning is transparent: a program is let through, or turned away at the same place and for the
same reason, however many states are kept to prune at, if the walk that keeps none does not run
out of its budget. -/
theorem verify_ends_alike
    (config : VerifierConfig) (find? : String → Option (MapId × Schema)) (program : Program)
    (elapsed : String)
    (complete : (Verifier.rejection?
      (Verifier.verify (config.keeping 0) find? program elapsed)).map Prod.snd ≠
        some .complexityExceeded)
    (states : Nat) :
    Verifier.rejection? (Verifier.verify (config.keeping states) find? program elapsed) =
      Verifier.rejection? (Verifier.verify (config.keeping 0) find? program elapsed) := by
  have keeping : Verifier.prepare find? (config.keeping states).limits program = _ :=
    Verifier.prepare_keeping (config.keeping 0) find? program states
  cases prepared : Verifier.prepare find? (config.keeping 0).limits program with
  | error rejection =>
      rw [prepared] at keeping
      rw [Verifier.rejection?_of_error prepared, Verifier.rejection?_of_error keeping]
  | ok found =>
      rcases found with ⟨journey, maps⟩
      rw [prepared] at keeping
      have keeps : journey.limits.states = 0 := by
        rw [(Verifier.prepares_of_prepare prepared).limits]
        rfl
      have finishes (position : Nat) : ¬ ((Walk.start journey
          { level := config.logLevel, sizeLimit := config.logSize }).run journey
            config.limits.complexity).EndsAs (.rejected position .complexityExceeded) := by
        intro exhausted
        refine complete ?_
        rw [Verifier.rejection?_of_endsAs prepared exhausted]
        rfl
      rcases Walk.start_ends_alike keeps _ { level := config.logLevel, sizeLimit := config.logSize }
        _ states finishes with ⟨ending, ends, ends'⟩
      rw [Verifier.rejection?_of_endsAs prepared ends,
        Verifier.rejection?_of_endsAs keeping ends']

/-- Two paths meet again, with nothing left that tells them apart. -/
def meetingProgram : Program where
  name := "meeting"
  attach := .observe
  code := #[⟨0x61, 2, 1, 16, 0⟩, ⟨0x15, 2, 0, 1, 0⟩, ⟨0xb7, 2, 0, 0, 0⟩, ⟨0xb7, 0, 0, 0, 2⟩,
    ⟨0x95, 0, 0, 0, 0⟩]

/-- One of the two paths is pruned where they meet, and the program is let through all the same. -/
theorem meeting_ends_alike :
    ((Verifier.verify (VerifierConfig.keeping {} 64) (fun _ => none) meetingProgram "").toOption.any
        fun verified => verified.statistics.pruned == 1) = true ∧
      Verifier.rejection?
        (Verifier.verify (VerifierConfig.keeping {} 0) (fun _ => none) meetingProgram "") = none ∧
      Verifier.rejection?
        (Verifier.verify (VerifierConfig.keeping {} 64) (fun _ => none) meetingProgram "") =
          Verifier.rejection?
            (Verifier.verify (VerifierConfig.keeping {} 0) (fun _ => none) meetingProgram "") := by
  have accepted : Verifier.rejection?
      (Verifier.verify (VerifierConfig.keeping {} 0) (fun _ => none) meetingProgram "") = none := by
    decide +kernel
  exact ⟨by decide +kernel, accepted,
    verify_ends_alike {} (fun _ => none) meetingProgram "" (by rw [accepted]; decide) 64⟩

end PacketFilter
