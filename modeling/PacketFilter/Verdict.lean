import PacketFilter.Machine.Fault

/-!
# Verdicts

What becomes of a packet.  A program leaves a code in its result register;
the code of a redirection needs a target that the program chose before.
-/

namespace PacketFilter

/-- The outcome of running a program on a packet. -/
inductive Verdict where
  | forward
  | drop
  | bounce
  | redirect (target : Nat)
  /-- The run was abandoned. -/
  | error
  deriving DecidableEq, Repr

/-- What happens to a packet. -/
inductive Action where
  | forward
  | drop
  | bounce
  | redirect (target : Nat)
  deriving DecidableEq, Repr

/-- What happens to packets whose program fails. -/
inductive FailurePolicy where
  | failOpen
  | failClosed
  deriving DecidableEq, Repr

namespace Verdict

/-- The verdict a program means by the number in its result register. -/
def ofCode (code : Word) (target? : Option Nat) : Except Fault Verdict :=
  match code.toNat with
  | 0 => .ok error
  | 1 => .ok drop
  | 2 => .ok forward
  | 3 => .ok bounce
  | 4 =>
    match target? with
    | some target => .ok (redirect target)
    | none => .error .missingRedirectTarget
  | _ => .error (.invalidReturnCode code)

/-- The number by which a program gives the verdict. -/
def code : Verdict → Nat
  | error => 0
  | drop => 1
  | forward => 2
  | bounce => 3
  | redirect _ => 4

/-- The verdict in a word, with the target of a redirection in brackets. -/
def text : Verdict → String
  | forward => "forward"
  | drop => "drop"
  | bounce => "bounce"
  | redirect target => "redirect(" ++ toString target ++ ")"
  | error => "error"

end Verdict

namespace FailurePolicy

/-- What happens to a packet whose program failed. -/
def action : FailurePolicy → Action
  | failOpen => .forward
  | failClosed => .drop

end FailurePolicy

namespace Action

/-- What a verdict leads to under a failure policy. -/
def ofVerdict (policy : FailurePolicy) : Verdict → Action
  | .forward => forward
  | .drop => drop
  | .bounce => bounce
  | .redirect target => redirect target
  | .error => policy.action

/-- The action in a word, with the target of a redirection in brackets. -/
def text : Action → String
  | forward => "Forward"
  | drop => "Drop"
  | bounce => "Bounce"
  | redirect target => "Redirect(" ++ toString target ++ ")"

end Action

end PacketFilter
