import PacketFilter.Abstract.Stack
import PacketFilter.Instruction.Operation

/-!
# Abstract states

What the verifier knows at one point of one path: the registers, the stack
frame, and the reserved records that have not been released yet.
-/

namespace PacketFilter

/-- What is known at one point of one path. -/
structure AbstractState where
  registers : RegisterFile AbstractValue
  stack : StackFrame
  /-- The records held, in the order they were reserved. -/
  references : List Nat
  deriving DecidableEq, Repr

namespace AbstractState

/-- At entry the first argument is the context and the frame register points past the stack. -/
def entry : AbstractState where
  registers :=
    ((RegisterFile.fill AbstractValue.uninitialized).write .context .context).write .frame
      (.stack 0)
  stack := .fresh
  references := []

instance : Inhabited AbstractState :=
  ⟨entry⟩

def register (state : AbstractState) (name : RegisterName) : AbstractValue :=
  state.registers.read name

/-- Replace what is known about a register. -/
def setRegister (state : AbstractState) (name : RegisterName) (value : AbstractValue) :
    AbstractState :=
  { state with registers := state.registers.write name value }

/-- Change every register and every spilled register. -/
def mapValues (change : AbstractValue → AbstractValue) (state : AbstractState) : AbstractState :=
  { state with
    registers := state.registers.map change
    stack := state.stack.mapSpills change }

/-- Hold one more record. -/
def acquire (state : AbstractState) (reference : Nat) : AbstractState :=
  { state with references := state.references ++ [reference] }

/-- Release a record and forget every pointer to it; nothing when the record is not held. -/
def release? (state : AbstractState) (reference : Nat) : Option AbstractState :=
  if state.references.contains reference then
    some
      { registers := state.registers.map fun value =>
          if value.reference = reference then .uninitialized else value
        stack := state.stack.breakUpWhere fun value => value.reference == reference
        references := state.references.erase reference }
  else
    none

/-- Forget the registers that a call does not preserve. -/
def forgetCallerSaved (state : AbstractState) : AbstractState :=
  RegisterName.callerSaved.foldl (fun state name => state.setRegister name .uninitialized) state

/--
Settle whether a nullable pointer is null, for all its copies.  On the null
edge the copies become zero and the record behind them is not held, as none
was reserved.
-/
def settleNull (state : AbstractState) (pointer : AbstractValue) (isNull : Bool) :
    AbstractState :=
  if pointer.identity = 0 then
    state
  else
    let settle (value : AbstractValue) : AbstractValue :=
      if value.identity ≠ pointer.identity ∨ !value.mayBeNull then value
      else if isNull then .constant 0
      else { value with mayBeNull := false }
    let settled := state.mapValues settle
    if isNull ∧ pointer.reference ≠ 0 then
      { settled with references := settled.references.filter (· != pointer.reference) }
    else
      settled

/-- Let every packet pointer of an identity know of at least `range` bytes. -/
def grantRange (state : AbstractState) (identity range : Nat) : AbstractState :=
  state.mapValues fun value =>
    if value.kind = .packet ∧ value.identity = identity ∧ value.range < range then
      { value with range }
    else
      value

end AbstractState

end PacketFilter
