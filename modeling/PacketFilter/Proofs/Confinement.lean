import PacketFilter.Proofs.Isolation

/-!
# Confinement of verified programs

What a program may do to a packet, and which verdicts it may give, depends on
where it is attached.  Both limits are met by every run of a program that was
let through: the memory of the machine keeps a packet that may only be looked
at, and the code at an exit is one of those that the attach point knows.
-/

namespace PacketFilter

theorem Memory.discardOpen_packet (memory : Memory) :
    memory.discardOpen.packet = memory.packet := by
  rw [discardOpen_eq]

/-- Closing a run leaves the packet as it is. -/
theorem Machine.close_packet (result : Except Fault Word) (machine : Machine) :
    (machine.close result).2.memory.packet = machine.memory.packet := by
  rw [close_memory]
  exact machine.memory.discardOpen_packet

/-- The packet that a run leaves behind is the one in the memory at its end. -/
theorem Engine.packet_of_runWithin
    {engine : Engine} {verified : VerifiedProgram} {context : PacketContext} {store : Store}
    {clock : Clock} {area : WorkArea} {result : Except Fault Word} {machine' : Machine}
    (ended : (engine.machine verified context area store).runWithin (engine.setup clock verified)
      engine.budget = (result, machine')) :
    (engine.run clock verified context area store).context.packet = machine'.memory.packet := by
  rw [run_eq, Machine.run_of_runWithin ended]
  exact Machine.close_packet result machine'

/-! ## Codes that an attach point knows -/

/-- Every code that an attach point knows stands for a verdict. -/
theorem Verdict.ofCode_of_known
    {attach : AttachPoint} {code : Word}
    (greatest : code.toNat ≤ attach.verdictRange.2) (target? : Option Nat) (other : Word) :
    ofCode code target? ≠ .error (.invalidReturnCode other) := by
  have small : code.toNat ≤ 4 :=
    greatest.trans (by cases attach <;> decide)
  intro failed
  unfold ofCode at failed
  rcases number : code.toNat with _ | _ | _ | _ | _ | more
  all_goals rw [number] at failed
  case succ.succ.succ.succ.zero => cases target? <;> cases failed
  case succ.succ.succ.succ.succ => omega
  all_goals cases failed

/-- The codes known where packets are only looked at stand for dropping and for passing. -/
theorem Verdict.ofCode_of_observe
    {code : Word} (least : AttachPoint.observe.verdictRange.1 ≤ code.toNat)
    (greatest : code.toNat ≤ AttachPoint.observe.verdictRange.2) (target? : Option Nat) :
    ofCode code target? = .ok drop ∨ ofCode code target? = .ok forward := by
  change 1 ≤ code.toNat at least
  change code.toNat ≤ 2 at greatest
  obtain single | double : code.toNat = 1 ∨ code.toNat = 2 := by omega
  · exact .inl (by simp only [ofCode, single])
  · exact .inr (by simp only [ofCode, double])

/-! ## Runs -/

section

variable {config : VerifierConfig} {find? : String → Option (MapId × Schema)}
variable {program : Program} {elapsed : String} {verified : VerifiedProgram}

/-- A program that was let through never returns a code that is not known, and where it may only
look at packets it leaves them as they are and drops or passes them, unless its budget runs out:
if its null tests are whole and, for the verdict, its loads of attributes are whole too and the
stack holds a frame. -/
theorem verified_run_confined
    (passed : Verifier.verify config find? program elapsed = .ok verified)
    (tests : ∀ check ∈ Verifier.checks config find? program, check.1.testsHalf check.2 = false)
    {engine : Engine} {context : PacketContext} (fits : context.Fits)
    (room : StackFrame.size ≤ engine.stackSize % 2 ^ 32 ∨
      context.packet.size + StackFrame.size ≤ 2 ^ 32)
    {store : Store} (provides : store.Provides find? program)
    (clock : Clock) (area : WorkArea) :
    (∀ code, (engine.run clock verified context area store).outcome ≠
        .error (.invalidReturnCode code)) ∧
      (program.attach = .observe →
        (engine.run clock verified context area store).context.packet = context.packet ∧
          (StackFrame.size ≤ engine.stackSize % 2 ^ 32 →
            (∀ check ∈ Verifier.checks config find? program, check.1.loadsPart check.2 = false) →
            (engine.run clock verified context area store).outcome = .ok .drop ∨
              (engine.run clock verified context area store).outcome = .ok .forward ∨
                (engine.run clock verified context area store).outcome =
                  .error (.budgetExceeded engine.budget))) := by
  rcases Verifier.verify_establishes passed with ⟨rfl, journey, trail, establishes⟩
  have roomy : (engine.scene journey.setting verified context).Roomy := room
  have attach : (engine.scene journey.setting verified context).setting.attach =
      verified.program.attach := establishes.attach
  rcases Engine.runs establishes provides fits roomy tests clock area area with
    ⟨walk, twin, _, runs⟩
  -- where packets may not be written, the memory at the end still holds the one handed in
  have kept {machine' : Machine}
      (sound : machine'.memory.Sound (engine.scene journey.setting verified context))
      (observes : verified.program.attach = .observe) :
      machine'.memory.packet = context.packet :=
    sound.packetKept (by rw [attach, observes]; rfl)
  cases runs with
  | exits code machine' twin' here there closed least greatest sound =>
      rw [Engine.outcome_of_exit here closed, Engine.packet_of_runWithin here]
      rw [attach] at least greatest
      refine ⟨fun other => Verdict.ofCode_of_known greatest _ other,
        fun observes => ⟨kept sound observes, fun _ _ => ?_⟩⟩
      rw [observes] at least greatest
      exact (Verdict.ofCode_of_observe least greatest _).imp_right .inl
  | fails position address size machine' twin' here there missed sound =>
      rw [Engine.outcome_of_fault here, Engine.packet_of_runWithin here]
      refine ⟨fun other same => (by cases same),
        fun observes => ⟨kept sound observes, fun frame loads => ?_⟩⟩
      rcases missed with noFrame | ⟨check, checked, part⟩
      · exact absurd frame noFrame
      · rw [Verifier.checks, establishes.survey] at loads
        exact Bool.noConfusion (part.symm.trans (loads check checked))
  | spent places machine' twin' here there length passes sound =>
      rw [Engine.outcome_of_fault here, Engine.packet_of_runWithin here]
      exact ⟨fun other same => (by cases same),
        fun observes => ⟨kept sound observes, fun _ _ => .inr (.inr rfl)⟩⟩

end

/-- Look at the first byte of the packet; drop the packet if there is none. -/
def watchProgram : Program where
  name := "watch"
  attach := .observe
  code := #[⟨0x79, 2, 1, 0, 0⟩, ⟨0x79, 3, 1, 8, 0⟩, ⟨0xbf, 4, 2, 0, 0⟩, ⟨0x07, 4, 0, 0, 1⟩,
    ⟨0x2d, 4, 3, 3, 0⟩, ⟨0x71, 5, 2, 0, 0⟩, ⟨0xb7, 0, 0, 0, 2⟩, ⟨0x95, 0, 0, 0, 0⟩,
    ⟨0xb7, 0, 0, 0, 1⟩, ⟨0x95, 0, 0, 0, 0⟩]

theorem watch_run_confined :
    ∃ verified, Verifier.verify {} (fun _ => none) watchProgram "" = .ok verified ∧
      ∀ (clock : Clock) (area : WorkArea),
        (∀ code, (({} : Engine).run clock verified { packet := #[1, 2, 3] } area {}).outcome ≠
            .error (.invalidReturnCode code)) ∧
          (({} : Engine).run clock verified { packet := #[1, 2, 3] } area {}).context.packet =
              #[1, 2, 3] ∧
            ((({} : Engine).run clock verified { packet := #[1, 2, 3] } area {}).outcome =
                .ok .drop ∨
              (({} : Engine).run clock verified { packet := #[1, 2, 3] } area {}).outcome =
                  .ok .forward ∨
                (({} : Engine).run clock verified { packet := #[1, 2, 3] } area {}).outcome =
                  .error (.budgetExceeded 1000000)) := by
  have accepted : (Verifier.verify {} (fun _ => none) watchProgram "").toOption.any
      (fun _ => true) = true := by decide +kernel
  have provides : Store.Provides {} (fun _ => none) watchProgram :=
    ⟨Store.forWorkers_wellFormed 1, fun _ listed => by cases listed⟩
  rcases Verifier.accepted_of_any accepted with ⟨verified, passed, _⟩
  refine ⟨verified, passed, fun clock area => ?_⟩
  have confined := @verified_run_confined {} (fun _ => none) watchProgram "" verified passed
    (by decide +kernel) {} { packet := #[1, 2, 3] } ⟨rfl, by decide, by decide, by decide⟩
    (.inl (by decide)) {} provides clock area
  rcases confined.2 rfl with ⟨packet, verdict⟩
  exact ⟨confined.1, packet, verdict (by decide) (by decide +kernel)⟩

/-- Look up a key and test the low half of the pointer found, which is zero although the pointer
is not.  Its high half, taken for zero as well, turns the frame register into an address of the
packet and the result into a code that stands for nothing. -/
def intrudingProgram : Program where
  name := "intruding"
  attach := .observe
  code := #[⟨0x7a, 10, 0, -8, 0⟩, ⟨0x18, 1, 1, 0, 0⟩, ⟨0, 0, 0, 0, 0⟩, ⟨0xbf, 2, 10, 0, 0⟩,
    ⟨0x07, 2, 0, 0, -8⟩, ⟨0x85, 0, 0, 0, 1⟩, ⟨0x16, 0, 0, 2, 0⟩, ⟨0xb7, 0, 0, 0, 2⟩,
    ⟨0x95, 0, 0, 0, 0⟩, ⟨0x77, 0, 0, 0, 32⟩, ⟨0xbf, 3, 0, 0, 0⟩, ⟨0x27, 3, 0, 0, 126⟩,
    ⟨0xbf, 4, 0, 0, 0⟩, ⟨0x77, 4, 0, 0, 2⟩, ⟨0x67, 4, 0, 0, 32⟩, ⟨0x0f, 3, 4, 0, 0⟩,
    ⟨0xbf, 2, 10, 0, 0⟩, ⟨0x1f, 2, 3, 0, 0⟩, ⟨0x72, 2, 0, -8, 102⟩, ⟨0x07, 0, 0, 0, 2⟩,
    ⟨0x95, 0, 0, 0, 0⟩]
  bindings := [⟨"m", .hash, 4, 8⟩]

/-- A program that may only look at packets writes to one and returns a code that is not known. -/
theorem intruding_run_not_confined :
    ∃ verified, Verifier.verify {} filledStore.binding? intrudingProgram "" = .ok verified ∧
      (({} : Engine).run (.still 0) verified { packet := #[1, 2, 3] } (.zeroed 512)
          filledStore).context.packet = #[102, 2, 3] ∧
        (({} : Engine).run (.still 0) verified
          { packet := #[1, 2, 3] } (.zeroed 512) filledStore).outcome =
          .error (.invalidReturnCode 6) := by
  let result (verified : VerifiedProgram) : RunResult :=
    ({} : Engine).run (.still 0) verified { packet := #[1, 2, 3] } (.zeroed 512) filledStore
  have intrudes : (Verifier.verify {} filledStore.binding? intrudingProgram "").toOption.any
      (fun verified => (result verified).context.packet == #[102, 2, 3] &&
        (result verified).outcome == .error (.invalidReturnCode 6)) = true := by
    decide +kernel
  rcases Verifier.accepted_of_any intrudes with ⟨verified, passed, intrudes⟩
  rw [Bool.and_eq_true, beq_iff_eq, beq_iff_eq] at intrudes
  exact ⟨verified, passed, intrudes⟩

end PacketFilter
