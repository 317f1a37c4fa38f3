import PacketFilter.Machine.Run
import PacketFilter.Proofs.Running

/-!
# Programs read line by line

A program whose jumps all lead forward is read as a list of lines, each with
its operation and, for a jump, with the place it leads to.  Such a program
needs no more steps than it has slots, so what it delivers can be found by
going through its lines.

`Machine.Delivers` says of a machine that it comes to an exit at which
something holds.  There is one rule for each kind of line: to know it of a
machine it is enough to know it of the machine after the line.
-/

namespace PacketFilter

/-- Lines name registers by their numbers. -/
instance RegisterName.neZero : NeZero 11 :=
  ⟨by decide⟩

/-- What stands at a place of a program, jumps with the place they lead to. -/
inductive Line where
  | operation (operation : Operation)
  | branch (comparison : Comparison) (left : RegisterName) (right : Operand) (target : Nat)
  | jump (target : Nat)
  deriving DecidableEq, Repr

namespace Line

/-! ## Lines as they are written -/

/-- A 64-bit operation. -/
def compute (arithmetic : Arithmetic) (destination : RegisterName) (right : Operand) : Line :=
  .operation (.compute .whole arithmetic destination right)

def move (destination source : RegisterName) : Line :=
  compute .move destination (.register source)

/-- A constant put into a register. -/
def set (destination : RegisterName) (value : Int32) : Line :=
  compute .move destination (.immediate value)

def load (size : AccessSize) (destination base : RegisterName) (offset : Int) : Line :=
  .operation (.load size destination base offset)

def store (size : AccessSize) (base : RegisterName) (offset : Int) (value : Operand) : Line :=
  .operation (.store size base offset value)

/-- An atomic addition of a register to the word behind another. -/
def add (fetches : Bool) (base source : RegisterName) : Line :=
  .operation (.atomic (.combine .add fetches) .double base source 0)

/-- The handle of a declared map put into a register, which takes two slots. -/
def loadMap (destination : RegisterName) (map : Int32) : Line :=
  .operation (.loadMap destination map)

def call (helper : Helper) : Line :=
  .operation (.call (Int32.ofNat helper.number))

def exit : Line :=
  .operation .exit

/-! ## Lines as they are found -/

/-- The operation that the line is decoded to, without where it leads. -/
def decoded : Line → Operation
  | .operation plain => plain
  | .branch comparison left right _ => .branch .whole comparison left right
  | .jump _ => .jump

/-- How many slots the line takes. -/
def width : Line → Nat
  | .operation (.loadMap _ _) | .operation (.loadConstant _ _) => 2
  | _ => 1

/-- Where the line may lead other than to the next. -/
def target? : Line → Option Nat
  | .operation _ => none
  | .branch _ _ _ target | .jump target => some target

end Line

namespace Code

/-- The line stands at a position; if it is a jump, it leads forward. -/
def hasLine (code : Code) (position : Nat) (line : Line) : Bool :=
  code.operation? position == some line.decoded &&
    code[position]?.any fun instruction =>
      instruction.span == line.width &&
        line.target?.all fun target =>
          instruction.jumpTarget? position code.size == some target && position < target

/-- The lines stand one after the other from a position on. -/
def lists (code : Code) : Nat → List Line → Bool
  | _, [] => true
  | position, line :: rest => code.hasLine position line && code.lists (position + line.width) rest

def widths (lines : List Line) : Nat :=
  (lines.map Line.width).sum

theorem lists_cons {code : Code} {position : Nat} {line : Line} {rest : List Line} :
    code.lists position (line :: rest) ↔
      code.hasLine position line ∧ code.lists (position + line.width) rest := by
  rw [lists, Bool.and_eq_true]

end Code

namespace Machine

/-! ## Machines that have been changed -/

/-- One step has been begun. -/
def counted (machine : Machine) : Machine :=
  { machine with steps := machine.steps + 1 }

/-- Go on at a position, one step later. -/
def goTo (machine : Machine) (position : Nat) : Machine :=
  { machine with position, steps := machine.steps + 1 }

/-- The machine with its memory replaced. -/
def withMemory (machine : Machine) (memory : Memory) : Machine :=
  { machine with memory }

variable {machine : Machine} {name : RegisterName} {value : Word} {memory : Memory} {position : Nat}

@[simp]
theorem position_counted : machine.counted.position = machine.position :=
  rfl

@[simp]
theorem memory_counted : machine.counted.memory = machine.memory :=
  rfl

@[simp]
theorem register_counted : machine.counted.register name = machine.register name :=
  rfl

@[simp]
theorem operand_counted {right : Operand} :
    machine.counted.operand right = machine.operand right := by
  cases right <;> rfl

@[simp]
theorem register_goTo : (machine.goTo position).register name = machine.register name :=
  rfl

@[simp]
theorem register_withMemory : (machine.withMemory memory).register name = machine.register name :=
  rfl

@[simp]
theorem memory_setRegister : (machine.setRegister name value).memory = machine.memory :=
  rfl

@[simp]
theorem memory_goTo : (machine.goTo position).memory = machine.memory :=
  rfl

@[simp]
theorem memory_withMemory : (machine.withMemory memory).memory = memory :=
  rfl

@[simp]
theorem operand_register : machine.operand (.register name) = machine.register name :=
  rfl

@[simp]
theorem operand_immediate {immediate : Int32} :
    machine.operand (.immediate immediate) = Word.ofImmediate immediate :=
  rfl

/-! ## What a run delivers -/

/-- A run comes to an exit within as many steps as there are slots left, and this holds there of
the code and the machine. -/
def Delivers (setup : Setup) (post : Word → Machine → Prop) (machine : Machine) : Prop :=
  ∃ code final, post code final ∧ ∀ steps, setup.code.size - machine.position ≤ steps →
    machine.runWithin setup steps = (.ok code, final)

namespace Delivers

variable {setup : Setup} {post : Word → Machine → Prop} {machine' : Machine}

theorem of_moves
    (inside : machine.position < setup.code.size)
    (moves : (Execution.step setup).run machine = (.ok none, machine'))
    (later : machine.position < machine'.position)
    (continues : Delivers setup post machine') : Delivers setup post machine := by
  rcases continues with ⟨code, final, holds, ends⟩
  refine ⟨code, final, holds, fun steps enough => ?_⟩
  obtain ⟨steps, rfl⟩ : ∃ rest, steps = rest + 1 := ⟨steps - 1, by omega⟩
  rw [runWithin_of_moves steps moves]
  exact ends steps (by omega)

theorem of_exits
    {code : Word}
    (inside : machine.position < setup.code.size)
    (exits : (Execution.step setup).run machine = (.ok (some code), machine'))
    (holds : post code machine') : Delivers setup post machine := by
  refine ⟨code, machine', holds, fun steps enough => ?_⟩
  obtain ⟨steps, rfl⟩ : ∃ rest, steps = rest + 1 := ⟨steps - 1, by omega⟩
  rw [runWithin, exits]

/-- What a line is found to be when it is reached. -/
theorem step_of_lists
    {line : Line} {rest : List Line}
    (listed : setup.code.lists machine.position (line :: rest)) :
    machine.position < setup.code.size ∧
      setup.code.lists (machine.position + line.width) rest ∧
      ∃ instruction : Instruction, instruction.span = line.width ∧
        (∀ target, line.target? = some target → machine.position < target ∧
          instruction.jumpTarget? machine.position setup.code.size = some target) ∧
        (Execution.step setup).run machine =
          (Execution.perform setup instruction line.decoded).run machine.counted := by
  rcases Code.lists_cons.mp listed with ⟨here, later⟩
  simp only [Code.hasLine, Bool.and_eq_true, beq_iff_eq, Option.any_eq_true] at here
  rcases here with ⟨decoded, instruction, fetched, span, leads⟩
  refine ⟨(Array.getElem?_eq_some_iff.mp fetched).1, later, instruction, span,
    fun target jumps => ?_,
    Execution.run_step machine fetched decoded⟩
  rw [jumps] at leads
  simpa [and_comm] using leads

variable {rest : List Line}

/-- The line changes the machine as its operation does and goes on with the next line. -/
theorem of_operation
    {operation : Operation}
    (listed : setup.code.lists machine.position (.operation operation :: rest))
    (performs : ∀ (instruction : Instruction) (following : Nat),
      machine.position + instruction.span = following →
        (Execution.perform setup instruction operation).run machine.counted =
          (.ok none, machine'.goTo following))
    (continues : setup.code.lists (machine.position + (Line.operation operation).width) rest →
      Delivers setup post (machine'.goTo (machine.position + (Line.operation operation).width))) :
    Delivers setup post machine := by
  rcases step_of_lists listed with ⟨inside, later, instruction, span, _, steps⟩
  have following := congrArg (machine.position + ·) span
  have positive := instruction.span_pos
  refine of_moves inside (steps.trans (performs instruction _ following)) ?_ (continues later)
  show machine.position < machine.position + (Line.operation operation).width
  omega

theorem compute
    {arithmetic : Arithmetic} {destination : RegisterName} {right : Operand}
    (listed : setup.code.lists machine.position (.compute arithmetic destination right :: rest))
    (continues : setup.code.lists (machine.position + 1) rest →
      Delivers setup post ((machine.setRegister destination
        (arithmetic.apply (machine.register destination) (machine.operand right))).goTo
          (machine.position + 1))) :
    Delivers setup post machine := by
  refine of_operation listed (fun instruction following next => ?_) continues
  simp only [Execution.perform, Stateful.run_bind, Stateful.run_get, Stateful.run_pure,
    Execution.run_read, Execution.run_operand, Execution.run_write, Execution.run_moveTo,
    position_counted, operand_counted, next]
  rfl

theorem load
    {size : AccessSize} {destination base : RegisterName} {offset : Int}
    (listed : setup.code.lists machine.position (.load size destination base offset :: rest))
    (found : machine.memory.load? (machine.register base + BitVec.ofInt 64 offset) size.bytes =
      some value)
    (continues : setup.code.lists (machine.position + 1) rest →
      Delivers setup post ((machine.setRegister destination value).goTo (machine.position + 1))) :
    Delivers setup post machine := by
  refine of_operation listed (fun instruction following next => ?_) continues
  simp only [Execution.perform, Stateful.run_bind, Stateful.run_get, Stateful.run_pure,
    Execution.run_read, Execution.run_load, Execution.run_write, Execution.run_moveTo,
    position_counted, register_counted, memory_counted, found, next]
  rfl

theorem store
    {size : AccessSize} {base : RegisterName} {offset : Int} {right : Operand}
    (listed : setup.code.lists machine.position (.store size base offset right :: rest))
    (stored : machine.memory.store? (machine.register base + BitVec.ofInt 64 offset) size.bytes
      (machine.operand right) = some memory)
    (continues : setup.code.lists (machine.position + 1) rest →
      Delivers setup post ((machine.withMemory memory).goTo (machine.position + 1))) :
    Delivers setup post machine := by
  refine of_operation listed (fun instruction following next => ?_) continues
  simp only [Execution.perform, Stateful.run_bind, Stateful.run_get, Stateful.run_pure,
    Execution.run_read, Execution.run_operand, Execution.run_store, Execution.run_moveTo,
    position_counted, register_counted, operand_counted, memory_counted, stored, next]
  rfl

/-- A number in memory is added to; the one that was there is handed back if it is asked for. -/
theorem add
    {fetches : Bool} {base source : RegisterName} {old : Word}
    (listed : setup.code.lists machine.position (.add fetches base source :: rest))
    (updated : machine.memory.update? (machine.register base) 8 (· + machine.register source) =
      some (old, memory))
    (continues : setup.code.lists (machine.position + 1) rest →
      Delivers setup post ((if fetches then (machine.withMemory memory).setRegister source old
        else machine.withMemory memory).goTo (machine.position + 1))) :
    Delivers setup post machine := by
  have whole (word : Word) : word.lowBits (AccessSize.double.bytes * 8) = word :=
    Word.lowBits_of_short (by decide) word.isLt
  have still (word : Word) : word + BitVec.ofInt 64 0 = word := BitVec.add_zero word
  have updated' : machine.memory.update? (machine.register base) AccessSize.double.bytes
      (Execution.replacement (.combine .add fetches) (machine.register source)
        (machine.register RegisterName.result)) = some (old, memory) := updated
  refine of_operation listed (fun instruction following next => ?_) continues
  simp only [Execution.perform, Execution.atomic, Stateful.run_bind, Stateful.run_get,
    Stateful.run_pure, Execution.run_read, Execution.run_update, Execution.run_moveTo,
    position_counted, register_counted, memory_counted, whole, still, updated', next]
  cases fetches <;> rfl

theorem loadMap
    {destination : RegisterName} {map : Int32}
    (listed : setup.code.lists machine.position (.loadMap destination map :: rest))
    (continues : setup.code.lists (machine.position + 2) rest →
      Delivers setup post ((machine.setRegister destination
        (RegionAddress.make RegionAddress.mapHandle (BitVec.ofInt 32 map.toInt).toNat)).goTo
          (machine.position + 2))) :
    Delivers setup post machine := by
  refine of_operation listed (fun instruction following next => ?_) continues
  simp only [Execution.perform, Stateful.run_bind, Stateful.run_get, Stateful.run_pure,
    Execution.run_write, Execution.run_moveTo, position_counted, next]
  rfl

/-- A helper that changes nothing but the memory and the target of a redirection. -/
theorem call
    {helper : Helper} {target? : Option Nat}
    (listed : setup.code.lists machine.position (.call helper :: rest))
    (called : (Execution.call setup helper).run machine.counted =
      (.ok value, { machine.counted with memory, redirectTarget? := target? }))
    (continues : setup.code.lists (machine.position + 1) rest →
      Delivers setup post
        ((({ machine with memory, redirectTarget? := target? } : Machine).setRegister 0 value).goTo
          (machine.position + 1))) :
    Delivers setup post machine := by
  have named : Helper.ofImmediate? (Int32.ofNat helper.number) = some helper := by
    cases helper <;> decide
  refine of_operation listed (fun instruction following next => ?_) continues
  simp only [Execution.perform, Stateful.run_bind, Stateful.run_get, Stateful.run_pure, named,
    called, Execution.run_write, Execution.run_moveTo, position_counted, next]
  rfl

theorem branch
    {comparison : Comparison} {left : RegisterName} {right : Operand} {target : Nat}
    (listed : setup.code.lists machine.position (.branch comparison left right target :: rest))
    (taken : comparison.holds (machine.register left) (machine.operand right) = true →
      machine.position < target → Delivers setup post (machine.goTo target))
    (continues : comparison.holds (machine.register left) (machine.operand right) = false →
      setup.code.lists (machine.position + 1) rest →
        Delivers setup post (machine.goTo (machine.position + 1))) :
    Delivers setup post machine := by
  rcases step_of_lists listed with ⟨inside, later, instruction, span, leads, steps⟩
  rcases leads target rfl with ⟨forward, jumps⟩
  have following : machine.position + instruction.span = machine.position + 1 :=
    congrArg (machine.position + ·) span
  rcases held : comparison.holds (machine.register left) (machine.operand right) with _ | _
  · refine of_moves inside (steps.trans ?_) (Nat.lt_succ_self _) (continues held later)
    simp only [Line.decoded, Execution.perform, Execution.holds, Stateful.run_bind,
      Stateful.run_get, Stateful.run_pure, Execution.run_read, Execution.run_operand,
      Execution.run_moveTo, position_counted, register_counted, operand_counted, held, following,
      Bool.false_eq_true, if_false]
    rfl
  · refine of_moves inside (steps.trans ?_) forward (taken held forward)
    simp only [Line.decoded, Execution.perform, Execution.holds, Execution.jump, Stateful.run_bind,
      Stateful.run_get, Stateful.run_pure, Execution.run_read, Execution.run_operand,
      Execution.run_moveTo, position_counted, register_counted, operand_counted, held, jumps,
      if_true]
    rfl

theorem jump
    {target : Nat}
    (listed : setup.code.lists machine.position (.jump target :: rest))
    (continues : machine.position < target → Delivers setup post (machine.goTo target)) :
    Delivers setup post machine := by
  rcases step_of_lists listed with ⟨inside, _, instruction, _, leads, steps⟩
  rcases leads target rfl with ⟨forward, jumps⟩
  refine of_moves inside (steps.trans ?_) forward (continues forward)
  simp only [Line.decoded, Execution.perform, Execution.jump, Stateful.run_bind, Stateful.run_get,
    Stateful.run_pure, Execution.run_moveTo, position_counted, jumps]
  rfl

theorem exit
    (listed : setup.code.lists machine.position (.exit :: rest))
    (holds : post (machine.register 0) machine.counted) :
    Delivers setup post machine := by
  rcases step_of_lists listed with ⟨inside, _, instruction, _, _, steps⟩
  exact of_exits inside steps holds

end Delivers

end Machine

end PacketFilter
