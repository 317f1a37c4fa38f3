import PacketFilter.Proofs.Outcomes

/-!
# Safety of verified programs

The machine checks every access, and a program that was let through never
fails such a check, as long as it is treated the way it was verified: the stack
holds a frame, a pointer is tested for null as a whole, and so is a field of
the context loaded.
-/

namespace PacketFilter

/-- The program did something that no program may do. -/
def Fault.isUnsafe : Fault → Bool
  | .outOfBounds .. | .disallowedCall .. | .invalidInstruction _ => true
  | _ => false

/-- The run ended for doing so. -/
def RunResult.isUnsafe (result : RunResult) : Bool :=
  match result.outcome with
  | .error fault => fault.isUnsafe
  | .ok _ => false

section

variable {config : VerifierConfig} {find? : String → Option (MapId × Schema)}
variable {program : Program} {elapsed : String} {verified : VerifiedProgram}

/-- A program that was let through never leaves the regions it has been given, and never does what
it may not, if its null tests and its loads of attributes are whole. -/
theorem verified_run_safe
    (passed : Verifier.verify config find? program elapsed = .ok verified)
    (tests : ∀ check ∈ Verifier.checks config find? program, check.1.testsHalf check.2 = false)
    (loads : ∀ check ∈ Verifier.checks config find? program, check.1.loadsPart check.2 = false)
    {engine : Engine} (frame : StackFrame.size ≤ engine.stackSize % 2 ^ 32)
    {context : PacketContext} (fits : context.Fits)
    {store : Store} (provides : store.Provides find? program)
    (clock : Clock) (area : WorkArea) {fault : Fault}
    (failed : (engine.run clock verified context area store).outcome = .error fault) :
    fault.isUnsafe = false := by
  rcases Verifier.verify_establishes passed with ⟨rfl, journey, trail, establishes⟩
  have roomy : (engine.scene journey.setting verified context).Roomy := .inl frame
  rcases Engine.runs establishes provides fits roomy tests clock area area with
    ⟨walk, twin, _, runs⟩
  cases runs with
  | exits code machine' twin' here there closed least greatest =>
      rw [Engine.outcome_of_exit here closed] at failed
      rcases Verdict.ofCode_eq_error failed with rfl | rfl
      · rfl
      · rfl
  | fails position address size machine' twin' here there missed =>
      rcases missed with noFrame | ⟨check, checked, part⟩
      · exact absurd frame noFrame
      · rw [Verifier.checks, establishes.survey] at loads
        exact Bool.noConfusion (part.symm.trans (loads check checked))
  | spent passed machine' twin' here there length passes =>
      rw [Engine.outcome_of_fault here] at failed
      cases failed
      rfl

end

/-- A store with one hash map, under the name "m". -/
def hashStore : Store :=
  ((Store.create "m" (.hash 4 8 4)).run (.forWorkers 1)).2

theorem hashStore_provides (program : Program) :
    hashStore.Provides hashStore.binding? program :=
  Store.WellFormed.provides ((Store.forWorkers_wellFormed 1).create "m" _).1 program

/-- Look up a key that lies on the stack, and load the value found. -/
def lookupProgram : Program where
  name := "lookup"
  code := #[⟨0x62, 10, 0, -4, 0⟩, ⟨0x18, 1, 1, 0, 0⟩, ⟨0, 0, 0, 0, 0⟩, ⟨0xbf, 2, 10, 0, 0⟩,
    ⟨0x07, 2, 0, 0, -4⟩, ⟨0x85, 0, 0, 0, 1⟩, ⟨0x15, 0, 0, 1, 0⟩, ⟨0x79, 1, 0, 0, 0⟩,
    ⟨0xb7, 0, 0, 0, 2⟩, ⟨0x95, 0, 0, 0, 0⟩]
  bindings := [⟨"m", .hash, 4, 8⟩]

theorem lookup_run_safe :
    ∃ verified, Verifier.verify {} hashStore.binding? lookupProgram "" = .ok verified ∧
      ∀ (clock : Clock) (area : WorkArea) (fault : Fault),
        (({} : Engine).run clock verified { packet := #[1, 2, 3] } area hashStore).outcome =
          .error fault → fault.isUnsafe = false := by
  rcases Verifier.accepted_of_any (show
    (Verifier.verify {} hashStore.binding? lookupProgram "").toOption.any (fun _ => true) = true
      by decide +kernel) with ⟨verified, passed, _⟩
  exact ⟨verified, passed, fun clock area fault failed =>
    verified_run_safe passed (by decide +kernel) (by decide +kernel) (by decide)
      ⟨rfl, by decide, by decide, by decide⟩ (hashStore_provides lookupProgram) clock area failed⟩

/-- Load one byte of the number of the interface. -/
def narrowLoadProgram : Program where
  name := "narrow"
  code := #[⟨0x71, 0, 1, 16, 0⟩, ⟨0xb7, 0, 0, 0, 2⟩, ⟨0x95, 0, 0, 0, 0⟩]

/-- A part of an attribute may be loaded as far as the verifier is concerned, but not in a run. -/
theorem narrow_load_unsafe :
    ∃ verified, Verifier.verify {} (fun _ => none) narrowLoadProgram "" = .ok verified ∧
      (({} : Engine).run (.still 0) verified
        { packet := #[1, 2, 3] } (.zeroed 512) {}).isUnsafe = true :=
  Verifier.accepted_of_any (by decide +kernel)

end PacketFilter
