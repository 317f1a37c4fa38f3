import Mathlib.Data.List.Basic
import PacketFilter.ControlFlow.Structure
import PacketFilter.Proofs.Checked

/-!
# Well-formed code

What the structural checks establish of a program: every slot at which an
instruction starts encodes an operation, no operation overwrites the frame
register, and every jump leads to such a slot.  The slots in between are second
halves of two-slot loads, and encode nothing.
-/

namespace PacketFilter

/-! ## Slots at which an instruction starts -/

namespace Code

variable {code : Code} {position slot : Nat}

theorem startsFrom_of_lt (inside : position < code.size) :
    code.startsFrom position = position :: code.startsFrom (position + code[position].span) := by
  rw [startsFrom, dif_pos inside]

theorem startsFrom_of_le (past : code.size ≤ position) : code.startsFrom position = [] := by
  rw [startsFrom, dif_neg (Nat.not_lt.mpr past)]

theorem le_of_mem_startsFrom (listed : slot ∈ code.startsFrom position) : position ≤ slot := by
  induction position using startsFrom.induct code with
  | case1 position inside continues =>
      rw [startsFrom_of_lt inside] at listed
      rcases List.mem_cons.mp listed with rfl | later
      · exact Nat.le_refl _
      · exact Nat.le_trans (Nat.le_add_right _ _) (continues later)
  | case2 position past =>
      rw [startsFrom_of_le (Nat.not_lt.mp past)] at listed
      cases listed

theorem lt_of_mem_startsFrom (listed : slot ∈ code.startsFrom position) : slot < code.size := by
  induction position using startsFrom.induct code with
  | case1 position inside continues =>
      rw [startsFrom_of_lt inside] at listed
      rcases List.mem_cons.mp listed with rfl | later
      · exact inside
      · exact continues later
  | case2 position past =>
      rw [startsFrom_of_le (Nat.not_lt.mp past)] at listed
      cases listed

/-- After a slot at which an instruction starts comes the one after that instruction. -/
theorem span_mem_startsFrom
    {instruction : Instruction}
    (listed : slot ∈ code.startsFrom position) (fetched : code[slot]? = some instruction)
    (inside : slot + instruction.span < code.size) :
    slot + instruction.span ∈ code.startsFrom position := by
  induction position using startsFrom.induct code with
  | case1 position short continues =>
      rw [startsFrom_of_lt short] at listed ⊢
      rcases List.mem_cons.mp listed with rfl | later
      · have same : code[slot] = instruction :=
          Option.some.inj ((Array.getElem?_eq_getElem short).symm.trans fetched)
        rw [same, startsFrom_of_lt inside]
        exact List.mem_cons_of_mem _ List.mem_cons_self
      · exact List.mem_cons_of_mem _ (continues later)
  | case2 position past =>
      rw [startsFrom_of_le (Nat.not_lt.mp past)] at listed
      cases listed

/-- No instruction starts inside another. -/
theorem not_mem_startsFrom_of_within
    {instruction : Instruction}
    (listed : position ∈ code.startsFrom slot) (fetched : code[position]? = some instruction)
    {inner : Nat} (later : position < inner) (within : inner < position + instruction.span) :
    inner ∉ code.startsFrom slot := by
  induction slot using startsFrom.induct code with
  | case1 slot short continues =>
      rw [startsFrom_of_lt short] at listed ⊢
      intro starts
      rcases List.mem_cons.mp listed with rfl | among
      · have same : code[position] = instruction :=
          Option.some.inj ((Array.getElem?_eq_getElem short).symm.trans fetched)
        rw [same] at starts
        rcases List.mem_cons.mp starts with rfl | beyond
        · exact Nat.lt_irrefl _ later
        · exact absurd (le_of_mem_startsFrom beyond) (Nat.not_le.mpr within)
      · rcases List.mem_cons.mp starts with rfl | beyond
        · have after := le_of_mem_startsFrom among
          omega
        · exact continues among beyond
  | case2 slot past =>
      rw [startsFrom_of_le (Nat.not_lt.mp past)] at listed
      cases listed

theorem zero_mem_starts (nonempty : 0 < code.size) : 0 ∈ code.starts := by
  rw [starts, startsFrom_of_lt nonempty]
  exact List.mem_cons_self

/-- A slot at which no instruction starts is inside one. -/
theorem exists_start_before (inside : slot < code.size) (none : slot ∉ code.startsFrom position)
    (later : position ≤ slot) :
    ∃ start instruction, start ∈ code.startsFrom position ∧ code[start]? = some instruction ∧
      start < slot ∧ slot < start + instruction.span := by
  induction position using startsFrom.induct code with
  | case1 position short continues =>
      rw [startsFrom_of_lt short] at none ⊢
      rw [List.mem_cons, not_or] at none
      by_cases within : slot < position + code[position].span
      · exact ⟨position, code[position], List.mem_cons_self, Array.getElem?_eq_getElem short,
          by omega, within⟩
      · rcases continues none.2 (Nat.not_lt.mp within) with ⟨start, instruction, listed, found⟩
        exact ⟨start, instruction, List.mem_cons_of_mem _ listed, found⟩
  | case2 position past => omega

end Code

/-! ## Marks -/

namespace Graph

variable {slot : Nat}

/-- Marking adds the listed slots to those marked before. -/
theorem mark_iff (slots : List Nat) (marks : Array Bool) :
    (slots.foldl (fun marks slot => marks.setIfInBounds slot true) marks)[slot]?.getD false = true ↔
      marks[slot]?.getD false = true ∨ slot ∈ slots ∧ slot < marks.size := by
  induction slots generalizing marks with
  | nil => simp only [List.foldl_nil, List.not_mem_nil, false_and, or_false]
  | cons first rest continues =>
      rw [List.foldl_cons, continues, Array.size_setIfInBounds, Array.getElem?_setIfInBounds,
        List.mem_cons]
      by_cases here : first = slot
      · subst here
        by_cases inside : first < marks.size
        · rw [if_pos rfl, if_pos inside]
          exact iff_of_true (.inl rfl) (.inr ⟨.inl rfl, inside⟩)
        · rw [if_pos rfl, if_neg inside, Array.getElem?_eq_none (Nat.not_lt.mp inside)]
          exact iff_of_false
            (by rintro (unmarked | ⟨_, short⟩) <;> [cases unmarked; exact inside short])
            (by rintro (unmarked | ⟨_, short⟩) <;> [cases unmarked; exact inside short])
      · rw [if_neg here]
        simp only [Ne.symm here, false_or]

theorem marks_iff {length : Nat} (slots : List Nat) :
    (marks length slots)[slot]?.getD false = true ↔ slot ∈ slots ∧ slot < length := by
  have blank : (Array.replicate length false)[slot]?.getD false = false := by
    rw [Array.getElem?_replicate]
    split <;> rfl
  rw [marks, mark_iff, blank, Array.size_replicate]
  exact or_iff_right Bool.false_ne_true

end Graph

/-! ## Acceptable instructions -/

theorem RegisterName.ofNumber?_of_lt {number : UInt8} (inside : number < 11) :
    ∃ name : RegisterName, ofNumber? number = some name ∧ name.val = number.toNat :=
  ⟨⟨number.toNat, inside⟩, dif_pos inside, rfl⟩

namespace Instruction

variable {instruction : Instruction} {next? : Option Instruction}

/-- The demands on an instruction, one by one. -/
theorem problem?_eq_none_iff :
    instruction.problem? next? = none ↔
      (instruction.destination < 11 ∧ instruction.source < 11) ∧
        (instruction.writesDestination → instruction.destination ≠ 10) ∧
          (match instruction.family with
            | .wideLoad => instruction.wideLoadProblem? next?
            | .arithmetic | .arithmetic32 => instruction.arithmeticProblem?
            | .jump | .jump32 => instruction.jumpProblem?
            | .load | .storeImmediate | .storeRegister => instruction.memoryProblem?) = none := by
  unfold problem?
  split
  case isTrue outside =>
    refine iff_of_false (fun absurdity => by cases absurdity) ?_
    rintro ⟨⟨destination, source⟩, _⟩
    rcases outside with outside | outside
    · exact absurd destination (UInt8.not_lt.mpr outside)
    · exact absurd source (UInt8.not_lt.mpr outside)
  case isFalse inside =>
    rw [not_or, UInt8.not_le, UInt8.not_le] at inside
    split
    case isTrue overwrites =>
      exact iff_of_false (fun absurdity => by cases absurdity)
        fun kept => kept.2.1 overwrites.1 overwrites.2
    case isFalse kept =>
      rw [not_and] at kept
      exact ⟨fun met => ⟨inside, kept, met⟩, fun met => met.2.2⟩

/-- An acceptable arithmetic instruction names an operation, or converts the order of 16, 32 or 64
bits. -/
theorem arithmetic_of_arithmeticProblem? (sound : instruction.arithmeticProblem? = none) :
    (∃ operation, Arithmetic.ofCode? instruction.operationField = some operation) ∨
      instruction.operationField = Opcode.convertOrder ∧ instruction.family ≠ .arithmetic ∧
        instruction.immediate ∈ [16, 32, 64] := by
  unfold arithmeticProblem? at sound
  split at sound
  case isTrue => cases sound
  case isFalse =>
    rw [Option.orElse_eq_orElse, Option.orElse_eq_or, Option.or_eq_none_iff] at sound
    cases named : Arithmetic.ofCode? instruction.operationField with
    | some operation => exact .inl ⟨operation, rfl⟩
    | none =>
        have converts := sound.1
        simp only [arithmeticOperation?, named] at converts
        split at converts
        case isTrue order =>
          split at converts
          case isTrue => cases converts
          case isFalse half =>
            split at converts
            case isTrue width =>
              exact .inr ⟨order, fun whole => half (beq_iff_eq.mpr whole),
                List.contains_iff_mem.mp width⟩
            case isFalse => cases converts
        case isFalse => cases converts

/-- An order conversion of 16, 32 or 64 bits can be carried out. -/
theorem convertOrder?_of_mem
    {destination : RegisterName} (width : instruction.immediate ∈ [16, 32, 64]) :
    ∃ operation, instruction.convertOrder? destination = some operation := by
  simp only [List.mem_cons, List.not_mem_nil, or_false] at width
  unfold convertOrder?
  rcases width with width | width | width <;> rw [width] <;> exact ⟨_, rfl⟩

theorem convertOrder?_eq_some
    {destination : RegisterName} {operation : Operation}
    (decoded : instruction.convertOrder? destination = some operation) :
    ∃ order, ∃ bits ∈ [16, 32, 64], operation = .convertOrder order bits destination := by
  unfold convertOrder? at decoded
  dsimp only at decoded
  generalize (if instruction.hasRegisterOperand then ByteOrder.big else ByteOrder.little) = order
    at decoded
  split at decoded
  case isTrue =>
    cases decoded
    exact ⟨_, 16, by decide, rfl⟩
  case isFalse =>
    split at decoded
    case isTrue =>
      cases decoded
      exact ⟨_, 32, by decide, rfl⟩
    case isFalse =>
      split at decoded
      case isTrue =>
        cases decoded
        exact ⟨_, 64, by decide, rfl⟩
      case isFalse => cases decoded

/-- An acceptable jump that is neither unconditional nor a call nor an exit makes a comparison. -/
theorem comparison_of_branchProblem? (sound : instruction.branchProblem? = none) :
    ∃ comparison, Comparison.ofCode? instruction.operationField = some comparison := by
  unfold branchProblem? at sound
  split at sound
  case h_1 comparison named => exact ⟨comparison, named⟩
  case h_2 => cases sound

/-- An acceptable instruction of the `jump` family exits, calls, jumps or branches. -/
theorem branchProblem?_of_jumpProblem?
    (sound : instruction.jumpProblem? = none) (exits : ¬ instruction.isExit)
    (calls : ¬ instruction.isCall) (jumps : ¬ instruction.isJumpAlways) :
    instruction.branchProblem? = none := by
  rwa [jumpProblem?, if_neg jumps, if_neg calls, if_neg exits] at sound

/-- An acceptable atomic access names one of the atomic operations. -/
theorem atomic_of_memoryProblem?
    (sound : instruction.memoryProblem? = none) (stores : instruction.family = .storeRegister)
    (atomic : instruction.modeField = Opcode.atomicMode) :
    ∃ operation, AtomicOperation.ofImmediate? instruction.immediate = some operation := by
  have plain : instruction.modeField ≠ Opcode.memoryMode := by
    rw [atomic]
    decide
  have extending :
      ¬ (instruction.family = .load ∧ instruction.modeField = Opcode.signExtendingMode) := by
    rw [stores]
    exact fun loads => by cases loads.1
  have isAtomic : instruction.isAtomic := by
    rw [Instruction.isAtomic, stores, atomic]
    rfl
  rw [memoryProblem?, if_neg plain, if_neg extending, if_pos isAtomic] at sound
  unfold atomicProblem? at sound
  split at sound
  case isTrue => cases sound
  case isFalse =>
    split at sound
    case isTrue named => exact Option.isSome_iff_exists.mp named
    case isFalse => cases sound

/-- An acceptable two-slot load has a second slot, and nothing but an immediate in it. -/
theorem next_of_wideLoadProblem? (sound : instruction.wideLoadProblem? next? = none) :
    instruction.isWideLoad ∧ ∃ next, next? = some next ∧ next.code = 0 := by
  unfold wideLoadProblem? at sound
  split at sound
  case isTrue => cases sound
  case isFalse wide =>
    rw [Bool.not_eq_true', Bool.not_eq_false] at wide
    cases next? with
    | none => cases sound
    | some next =>
        dsimp only at sound
        split at sound
        case isTrue => cases sound
        case isFalse blank =>
          simp only [Bool.or_eq_true, bne_iff_ne, not_or, not_not] at blank
          exact ⟨wide, next, rfl, blank.1.1.1⟩

/-- What passes the checks can be carried out. -/
theorem decode?_of_problem? (sound : instruction.problem? next? = none) :
    ∃ operation, instruction.decode? next? = some operation := by
  rcases problem?_eq_none_iff.mp sound with ⟨⟨destinationInside, sourceInside⟩, _, sound⟩
  rcases RegisterName.ofNumber?_of_lt destinationInside with ⟨destination, readsDestination, _⟩
  rcases RegisterName.ofNumber?_of_lt sourceInside with ⟨source, readsSource, _⟩
  simp only [decode?, readsDestination, readsSource, Option.bind_eq_bind, Option.bind_some]
  cases family : instruction.family with
  | arithmetic =>
      rw [family] at sound
      rcases arithmetic_of_arithmeticProblem? sound with ⟨operation, named⟩ | ⟨_, half, _⟩
      · simp only [arithmetic?, named, Option.map_some]
        exact ⟨_, rfl⟩
      · exact absurd family half
  | arithmetic32 =>
      rw [family] at sound
      dsimp only
      split
      case isTrue order =>
        rcases arithmetic_of_arithmeticProblem? sound with ⟨operation, named⟩ | ⟨_, _, width⟩
        · rw [order, show Arithmetic.ofCode? Opcode.convertOrder = none by decide] at named
          cases named
        · exact convertOrder?_of_mem width
      case isFalse computes =>
        rcases arithmetic_of_arithmeticProblem? sound with ⟨operation, named⟩ | ⟨order, _⟩
        · simp only [arithmetic?, named, Option.map_some]
          exact ⟨_, rfl⟩
        · exact absurd order computes
  | load => exact ⟨_, rfl⟩
  | storeImmediate => exact ⟨_, rfl⟩
  | storeRegister =>
      rw [family] at sound
      dsimp only
      split
      case isTrue atomic =>
        rcases atomic_of_memoryProblem? sound family atomic with ⟨operation, named⟩
        rw [named]
        exact ⟨_, rfl⟩
      case isFalse => exact ⟨_, rfl⟩
  | wideLoad =>
      rw [family] at sound
      rcases next_of_wideLoadProblem? sound with ⟨wide, next, follows, _⟩
      dsimp only
      rw [if_pos wide, follows]
      exact ⟨_, rfl⟩
  | jump =>
      rw [family] at sound
      dsimp only
      split
      case isTrue => exact ⟨_, rfl⟩
      case isFalse exits =>
        split
        case isTrue => exact ⟨_, rfl⟩
        case isFalse calls =>
          split
          case isTrue => exact ⟨_, rfl⟩
          case isFalse jumps =>
            rcases comparison_of_branchProblem?
              (branchProblem?_of_jumpProblem? sound exits calls jumps) with ⟨comparison, named⟩
            simp only [branch?, named, Option.map_some]
            exact ⟨_, rfl⟩
  | jump32 =>
      rw [family] at sound
      have plain : ∀ {operation : Bool}, ((instruction.family == .jump) && operation) = false := by
        intro operation
        rw [family]
        rfl
      rcases comparison_of_branchProblem?
        (branchProblem?_of_jumpProblem? sound (by rw [isExit, plain]; decide)
          (by rw [isCall, plain]; decide) (by rw [isJumpAlways, plain]; decide)) with
        ⟨comparison, named⟩
      simp only [branch?, named, Option.map_some]
      exact ⟨_, rfl⟩

end Instruction

/-- The register whose contents an operation replaces, unless it is a call or atomic. -/
def Operation.overwritten? : Operation → Option RegisterName
  | .compute _ _ destination _ | .convertOrder _ _ destination | .load _ destination _ _
  | .loadConstant destination _ | .loadMap destination _ => some destination
  | .store .. | .atomic .. | .jump | .branch .. | .call _ | .exit => none

namespace Instruction

variable {instruction : Instruction} {next? : Option Instruction}

/-- What the fields of an instruction are like that encodes an operation. -/
inductive Encodes (instruction : Instruction) : Operation → Prop
  | compute {width : Width} {arithmetic : Arithmetic} {destination : RegisterName}
      {operand : Operand}
      (family : instruction.family = .arithmetic ∨ instruction.family = .arithmetic32)
      (writes : RegisterName.ofNumber? instruction.destination = some destination) :
      Encodes instruction (.compute width arithmetic destination operand)
  | convertOrder {order : ByteOrder} {bits : Nat} {destination : RegisterName}
      (family : instruction.family = .arithmetic32)
      (writes : RegisterName.ofNumber? instruction.destination = some destination) :
      Encodes instruction (.convertOrder order bits destination)
  | load {size : AccessSize} {destination base : RegisterName} {offset : Int}
      (family : instruction.family = .load)
      (writes : RegisterName.ofNumber? instruction.destination = some destination) :
      Encodes instruction (.load size destination base offset)
  | store {size : AccessSize} {base : RegisterName} {offset : Int} {value : Operand}
      (family : instruction.family = .storeImmediate ∨ instruction.family = .storeRegister) :
      Encodes instruction (.store size base offset value)
  | atomic {operation : AtomicOperation} {size : AccessSize} {base source : RegisterName}
      {offset : Int} (family : instruction.family = .storeRegister) :
      Encodes instruction (.atomic operation size base source offset)
  | loadConstant {destination : RegisterName} {value : Word} (wide : instruction.isWideLoad)
      (writes : RegisterName.ofNumber? instruction.destination = some destination) :
      Encodes instruction (.loadConstant destination value)
  | loadMap {destination : RegisterName} {index : Int32} (wide : instruction.isWideLoad)
      (writes : RegisterName.ofNumber? instruction.destination = some destination) :
      Encodes instruction (.loadMap destination index)
  | jump (jumps : instruction.isJumpAlways) : Encodes instruction .jump
  | branch {width : Width} {comparison : Comparison} {left : RegisterName} {right : Operand}
      (jumps : instruction.isJumpFamily)
      (named : Comparison.ofCode? instruction.operationField = some comparison) :
      Encodes instruction (.branch width comparison left right)
  | call {helper : Int32} (calls : instruction.isCall) : Encodes instruction (.call helper)
  | exit (exits : instruction.isExit) : Encodes instruction .exit

theorem isWideLoad_iff : instruction.isWideLoad = true ↔ instruction.code = Opcode.wideLoad :=
  beq_iff_eq

theorem family_of_isWideLoad (wide : instruction.isWideLoad) : instruction.family = .wideLoad := by
  rw [family, isWideLoad_iff.mp wide]
  rfl

theorem encodes_of_decode?
    {operation : Operation} (decoded : instruction.decode? next? = some operation) :
    instruction.Encodes operation := by
  rcases Option.bind_eq_some_iff.mp decoded with ⟨destination, writes, decoded⟩
  rcases Option.bind_eq_some_iff.mp decoded with ⟨source, _, decoded⟩
  have jumping (family : instruction.family = .jump ∨ instruction.family = .jump32) :
      instruction.isJumpFamily := by
    rw [isJumpFamily]
    rcases family with family | family <;> rw [family] <;> rfl
  cases family : instruction.family with
  | arithmetic =>
      rw [family] at decoded
      rcases Option.map_eq_some_iff.mp decoded with ⟨_, _, rfl⟩
      exact .compute (.inl family) writes
  | arithmetic32 =>
      rw [family] at decoded
      dsimp only at decoded
      split at decoded
      case isTrue =>
        rcases convertOrder?_eq_some decoded with ⟨order, bits, _, rfl⟩
        exact .convertOrder family writes
      case isFalse =>
        rcases Option.map_eq_some_iff.mp decoded with ⟨_, _, rfl⟩
        exact .compute (.inr family) writes
  | load =>
      rw [family] at decoded
      cases decoded
      exact .load family writes
  | storeImmediate =>
      rw [family] at decoded
      cases decoded
      exact .store (.inl family)
  | storeRegister =>
      rw [family] at decoded
      dsimp only at decoded
      split at decoded
      case isTrue =>
        rcases Option.map_eq_some_iff.mp decoded with ⟨_, _, rfl⟩
        exact .atomic family
      case isFalse =>
        cases decoded
        exact .store (.inr family)
  | wideLoad =>
      rw [family] at decoded
      dsimp only at decoded
      split at decoded
      case isTrue wide =>
        rcases Option.map_eq_some_iff.mp decoded with ⟨next, _, decoded⟩
        split at decoded
        · cases decoded
          exact .loadMap wide writes
        · cases decoded
          exact .loadConstant wide writes
      case isFalse => cases decoded
  | jump =>
      rw [family] at decoded
      dsimp only at decoded
      split at decoded
      case isTrue exits =>
        cases decoded
        exact .exit exits
      case isFalse =>
        split at decoded
        case isTrue calls =>
          cases decoded
          exact .call calls
        case isFalse =>
          split at decoded
          case isTrue jumps =>
            cases decoded
            exact .jump jumps
          case isFalse =>
            rcases Option.map_eq_some_iff.mp decoded with ⟨comparison, named, rfl⟩
            exact .branch (jumping (.inl family)) named
  | jump32 =>
      rw [family] at decoded
      rcases Option.map_eq_some_iff.mp decoded with ⟨comparison, named, rfl⟩
      exact .branch (jumping (.inr family)) named

/-- The register that an operation overwrites is the destination that is checked. -/
theorem Encodes.writesDestination
    {operation : Operation} {name : RegisterName} (encodes : instruction.Encodes operation)
    (overwrites : operation.overwritten? = some name) :
    instruction.writesDestination ∧ RegisterName.ofNumber? instruction.destination = some name := by
  unfold Instruction.writesDestination
  cases encodes with
  | compute family writes =>
      cases overwrites
      rcases family with family | family <;> rw [family] <;> exact ⟨rfl, writes⟩
  | convertOrder family writes =>
      cases overwrites
      rw [family]
      exact ⟨rfl, writes⟩
  | load family writes =>
      cases overwrites
      rw [family]
      exact ⟨rfl, writes⟩
  | loadConstant wide writes =>
      cases overwrites
      rw [family_of_isWideLoad wide]
      exact ⟨wide, writes⟩
  | loadMap wide writes =>
      cases overwrites
      rw [family_of_isWideLoad wide]
      exact ⟨wide, writes⟩
  | store | atomic | jump | branch | call | exit => cases overwrites

/-- A slot with opcode zero encodes nothing by itself. -/
theorem decode?_of_blank (blank : instruction.code = 0) : instruction.decode? next? = none := by
  have family : instruction.family = .wideLoad := by
    rw [Instruction.family, blank]
    rfl
  have narrow : ¬ instruction.isWideLoad := by
    rw [isWideLoad, blank]
    decide
  simp only [decode?, family, if_neg narrow, Option.bind_eq_bind, Option.bind_fun_none]

end Instruction

/-! ## Well-formed programs -/

namespace Code

/-- What the structural checks establish. -/
structure WellFormed (code : Code) : Prop where
  nonempty : 0 < code.size
  sound : ∀ slot ∈ code.starts, ∀ instruction, code[slot]? = some instruction →
    instruction.problem? code[slot + 1]? = none
  lands : ∀ slot ∈ code.starts, ∀ instruction, code[slot]? = some instruction →
    instruction.isJump →
      ∃ target ∈ code.starts, instruction.jumpTarget? slot code.size = some target

theorem firstProblem?_eq_none {positions : List Nat} {problemAt? : Nat → Complaint} :
    firstProblem? positions problemAt? = none ↔ ∀ slot ∈ positions, problemAt? slot = none := by
  simp only [firstProblem?, List.findSome?_eq_none_iff, Option.map_eq_none_iff]

/-- What `checkStructure` lets through is well formed. -/
theorem wellFormed_of_checkStructure
    {code : Code} {limit : Nat} (passed : code.checkStructure limit = .ok ()) :
    code.WellFormed := by
  unfold checkStructure at passed
  split at passed
  case isTrue => cases passed
  case isFalse nonempty =>
    split at passed
    case isTrue => cases passed
    case isFalse =>
      split at passed
      case h_1 => cases passed
      case h_2 clean =>
        rw [Option.orElse_eq_orElse, Option.orElse_eq_or, Option.or_eq_none_iff,
          firstProblem?_eq_none, firstProblem?_eq_none] at clean
        refine ⟨?_, fun slot starts instruction fetched => ?_,
          fun slot starts instruction fetched jumps => ?_⟩
        · rw [Array.isEmpty_iff_size_eq_zero] at nonempty
          exact Nat.pos_of_ne_zero nonempty
        · have sound := clean.1 slot starts
          rwa [problemAt?, fetched] at sound
        · have lands := clean.2 slot starts
          simp only [targetProblemAt?, fetched, Option.bind_eq_bind, Option.bind_some, guard, jumps,
            ite_true, pure] at lands
          cases leads : instruction.jumpTarget? slot code.size with
          | none =>
              rw [leads] at lands
              cases lands
          | some target =>
              rw [leads] at lands
              dsimp only at lands
              split at lands
              case isTrue marked => exact ⟨target, (Graph.marks_iff _).mp marked |>.1, rfl⟩
              case isFalse => cases lands

namespace WellFormed

variable {code : Code} {slot : Nat}

/-- What stands at a slot at which an instruction starts. -/
theorem exists_operation (wellFormed : code.WellFormed) (starts : slot ∈ code.starts) :
    ∃ instruction operation, code[slot]? = some instruction ∧
      instruction.decode? code[slot + 1]? = some operation := by
  have fetched := Array.getElem?_eq_getElem (lt_of_mem_startsFrom starts)
  rcases Instruction.decode?_of_problem? (wellFormed.sound slot starts _ fetched) with
    ⟨operation, decoded⟩
  exact ⟨_, operation, fetched, decoded⟩

/-- The second slot of a two-slot load carries opcode zero. -/
theorem second_of_wide
    (wellFormed : code.WellFormed) (starts : slot ∈ code.starts) {instruction : Instruction}
    (fetched : code[slot]? = some instruction) (wide : instruction.isWideLoad) :
    ∃ next, code[slot + 1]? = some next ∧ next.code = 0 := by
  have sound := (Instruction.problem?_eq_none_iff.mp (wellFormed.sound slot starts _ fetched)).2.2
  rw [Instruction.family_of_isWideLoad wide] at sound
  exact (Instruction.next_of_wideLoadProblem? sound).2

/-- A slot at which no instruction starts carries opcode zero. -/
theorem starts_of_code_ne_zero
    (wellFormed : code.WellFormed) {instruction : Instruction}
    (fetched : code[slot]? = some instruction) (coded : instruction.code ≠ 0) :
    slot ∈ code.starts := by
  by_contra inner
  rcases Array.getElem?_eq_some_iff.mp fetched with ⟨inside, _⟩
  rcases exists_start_before inside inner (Nat.zero_le slot) with
    ⟨start, before, starts, found, later, within⟩
  unfold Instruction.span at within
  split at within
  case isTrue wide =>
    have second : slot = start + 1 := by omega
    rcases wellFormed.second_of_wide starts found wide with ⟨next, follows, blank⟩
    rw [← second, fetched] at follows
    cases follows
    exact coded blank
  case isFalse => omega

/-- Nothing but the slots at which instructions start encodes an operation. -/
theorem starts_of_operation?
    (wellFormed : code.WellFormed) {operation : Operation}
    (encodes : code.operation? slot = some operation) :
    slot ∈ code.starts := by
  rcases Option.bind_eq_some_iff.mp encodes with ⟨instruction, fetched, decoded⟩
  refine wellFormed.starts_of_code_ne_zero fetched fun blank => ?_
  rw [Instruction.decode?_of_blank blank] at decoded
  cases decoded

/-- No operation overwrites the frame register. -/
theorem overwritten?_ne_frame
    (wellFormed : code.WellFormed) {operation : Operation}
    (encodes : code.operation? slot = some operation) :
    operation.overwritten? ≠ some RegisterName.frame := by
  intro overwrites
  rcases Option.bind_eq_some_iff.mp encodes with ⟨instruction, fetched, decoded⟩
  have starts := wellFormed.starts_of_operation? encodes
  rcases (Instruction.encodes_of_decode? decoded).writesDestination overwrites with
    ⟨writes, named⟩
  have kept := (Instruction.problem?_eq_none_iff.mp (wellFormed.sound slot starts _ fetched)).2.1
  apply kept writes
  unfold RegisterName.ofNumber? at named
  split at named
  · have same : instruction.destination.toNat = RegisterName.frame.val :=
      congrArg Fin.val (Option.some.inj named)
    exact UInt8.toNat_inj.mp same
  · cases named

end WellFormed

end Code

end PacketFilter
