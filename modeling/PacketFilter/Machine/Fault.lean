import PacketFilter.Numeral
import PacketFilter.Word

/-!
# Faults of a run

Why running a program came to no verdict, with the wording of each reason.
-/

namespace PacketFilter

/-- Why a run failed. -/
inductive Fault where
  | budgetExceeded (budget : Nat)
  /-- An access that does not lie in one live region. -/
  | outOfBounds (position : Nat) (address : Word) (size : Nat)
  | disallowedCall (position : Nat) (helper : Int32)
  | invalidInstruction (position : Nat)
  | missingRedirectTarget
  | invalidReturnCode (code : Word)
  /-- The program ended while it still held a reserved record. -/
  | unreleasedReservation
  deriving DecidableEq, Repr

namespace Fault

/-- The fault as a single word. -/
def label : Fault → String
  | budgetExceeded _ => "BudgetExceeded"
  | outOfBounds .. => "RuntimeBoundsViolation"
  | disallowedCall .. => "DisallowedCall"
  | invalidInstruction _ => "InvalidInstruction"
  | missingRedirectTarget => "MissingRedirectTarget"
  | invalidReturnCode _ => "InvalidReturnCode"
  | unreleasedReservation => "UnreleasedReservation"

/-- The fault as one line, with the slot where it arose if there is one. -/
def message : Fault → String
  | budgetExceeded budget => s!"instruction budget of {budget} exceeded"
  | outOfBounds position address size =>
    s!"runtime bounds violation at insn {position}: addr {Numeral.hex address.toNat} size {size}"
  | disallowedCall position helper =>
    s!"disallowed call to helper {helper.toInt} at insn {position}"
  | invalidInstruction position => s!"invalid instruction at {position}"
  | missingRedirectTarget => "redirect verdict without a target"
  | invalidReturnCode code => s!"invalid return code {code.toNat}"
  | unreleasedReservation => "ring buffer reservation not released"

end Fault

end PacketFilter
