import PacketFilter.Machine.Step
import PacketFilter.Proofs.Representation
import PacketFilter.Proofs.Stateful

/-!
# Runs of single actions

What the actions that a step is made of do to a machine, as equations about
their runs.  A machine and the same machine with another stack are told apart
by nothing but their stacks.
-/

namespace PacketFilter

namespace Machine

variable (machine : Machine) (stack other : Bytes)

@[simp]
theorem withStack_register (name : RegisterName) :
    (machine.withStack stack).register name = machine.register name :=
  rfl

@[simp]
theorem withStack_operand (operand : Operand) :
    (machine.withStack stack).operand operand = machine.operand operand := by
  cases operand <;> rfl

@[simp]
theorem withStack_position : (machine.withStack stack).position = machine.position :=
  rfl

@[simp]
theorem withStack_memory : (machine.withStack stack).memory = machine.memory.withStack stack :=
  rfl

end Machine

namespace Memory

variable (memory : Memory) (stack : Bytes)

@[simp]
theorem withStack_store : (memory.withStack stack).store = memory.store :=
  rfl

@[simp]
theorem withStack_metadata : (memory.withStack stack).metadata = memory.metadata :=
  rfl

end Memory

namespace Execution

variable (machine : Machine)

@[simp]
theorem run_read (name : RegisterName) :
    (read name).run machine = (.ok (machine.register name), machine) :=
  rfl

@[simp]
theorem run_write (name : RegisterName) (value : Word) :
    (write name value).run machine = (.ok (), machine.setRegister name value) :=
  rfl

@[simp]
theorem run_operand (right : Operand) :
    (operand right).run machine = (.ok (machine.operand right), machine) :=
  rfl

@[simp]
theorem run_refuse {α : Type} :
    (refuse : Execution α).run machine = (.error (.invalidInstruction machine.position), machine) :=
  rfl

@[simp]
theorem run_violation {α : Type} (address : Word) (size : Nat) :
    (violation address size : Execution α).run machine =
      (.error (.outOfBounds machine.position address size), machine) :=
  rfl

@[simp]
theorem run_setMemory (memory : Memory) :
    (setMemory memory).run machine = (.ok (), { machine with memory }) :=
  rfl

@[simp]
theorem run_moveTo (position : Nat) :
    (moveTo position).run machine = (.ok (), { machine with position }) :=
  rfl

/-- A load gives a word, or ends the run at this instruction. -/
@[simp]
theorem run_load (address : Word) (size : Nat) :
    (load address size).run machine =
      match machine.memory.load? address size with
      | some value => (.ok value, machine)
      | none => (.error (.outOfBounds machine.position address size), machine) := by
  simp only [load, Stateful.run_bind, Stateful.run_get]
  cases machine.memory.load? address size <;> rfl

@[simp]
theorem run_store (address : Word) (size : Nat) (value : Word) :
    (store address size value).run machine =
      match machine.memory.store? address size value with
      | some memory => (.ok (), { machine with memory })
      | none => (.error (.outOfBounds machine.position address size), machine) := by
  simp only [store, Stateful.run_bind, Stateful.run_get]
  cases machine.memory.store? address size value <;> rfl

/-- An update gives the old word, or ends the run at this instruction. -/
@[simp]
theorem run_update (address : Word) (size : Nat) (change : Word → Word) :
    (update address size change).run machine =
      match machine.memory.update? address size change with
      | some updated => (.ok updated.1, { machine with memory := updated.2 })
      | none => (.error (.outOfBounds machine.position address size), machine) := by
  simp only [update, Stateful.run_bind, Stateful.run_get]
  cases machine.memory.update? address size change <;> rfl

@[simp]
theorem run_readBytes (address : Word) (size : Nat) :
    (readBytes address size).run machine =
      match machine.memory.read? address size with
      | some bytes => (.ok bytes, machine)
      | none => (.error (.outOfBounds machine.position address size), machine) := by
  simp only [readBytes, Stateful.run_bind, Stateful.run_get]
  cases machine.memory.read? address size <;> rfl

/-- What is done to the store is done to that of the memory. -/
@[simp]
theorem run_onStore {α : Type} (action : StoreAction α) :
    (onStore action).run machine =
      (.ok (action.run machine.memory.store).1,
        { machine with
          memory := { machine.memory with store := (action.run machine.memory.store).2 } }) :=
  rfl

end Execution

end PacketFilter
