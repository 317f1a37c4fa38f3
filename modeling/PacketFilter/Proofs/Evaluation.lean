import PacketFilter.Machine.Step
import PacketFilter.Proofs.Bounds
import PacketFilter.Proofs.WellFormedCode

/-!
# Evaluating within bounds

What the machine computes from two words lies in the bounds that the verifier
computes from bounds of theirs, for every arithmetic instruction that the
structural checks let through, in both widths.  The bounds are not asked to be
well formed: bounds with a member are sane, and the value of their known bits
is clear wherever a bit is unknown.
-/

namespace PacketFilter

namespace Bounds

variable {left right : Bounds} {word word' : Word}

/-- Bounds with a member fix no bit that they leave open. -/
theorem wellFormed_of_mem (member : word ∈ left) : left.bits.WellFormed := by
  have agrees := KnownBits.mem_def.mp member.1
  rw [KnownBits.WellFormed, ← agrees, BitVec.and_assoc, BitVec.and_comm (~~~left.bits.mask),
    BitVec.and_not_self]
  exact BitVec.and_zero

/-- The bounds of an operation given by its number hold what the machine evaluates it to. -/
theorem evaluate_mem
    {number : UInt8} {operation : Arithmetic} (named : Arithmetic.ofCode? number = some operation)
    (leftMember : word ∈ left) (rightMember : word' ∈ right) :
    Execution.evaluate .whole operation word word' ∈ left.applyCode number right ∧
      Execution.evaluate .half operation word word' ∈ left.apply32Code number right := by
  rw [applyCode, apply32Code, named]
  exact ⟨apply_mem operation leftMember rightMember, apply32_mem operation leftMember rightMember⟩

/-- The machine's change of byte order stays in the verifier's bounds for it. -/
theorem convertOrder_bits_mem
    (order : ByteOrder) {bits : Nat} (width : bits ∈ [16, 32, 64]) (member : word ∈ left) :
    Execution.convertOrder order bits word ∈ left.convertOrder order bits := by
  simp only [List.mem_cons, List.not_mem_nil, or_false] at width
  exact convertOrder_mem member width order

/-- Every acceptable arithmetic instruction but a change of byte order names an operation whose
results, in either width, lie in the bounds of that operation; so do negated words, low halves and
changes of byte order. -/
theorem acceptable_arithmetic_mem
    {left right : Bounds} {word word' : Word}
    (leftMember : word ∈ left) (rightMember : word' ∈ right) :
    (∀ (instruction : Instruction) (next? : Option Instruction),
      instruction.family = .arithmetic ∨ instruction.family = .arithmetic32 →
      instruction.problem? next? = none → instruction.operationField ≠ Opcode.convertOrder →
      ∃ operation, Arithmetic.ofCode? instruction.operationField = some operation ∧
        Execution.evaluate .whole operation word word' ∈
          left.applyCode instruction.operationField right ∧
        Execution.evaluate .half operation word word' ∈
          left.apply32Code instruction.operationField right) ∧
      (∀ order, ∀ bits ∈ [16, 32, 64],
        Execution.convertOrder order bits word ∈ left.convertOrder order bits) ∧
      -word ∈ left.neg ∧ word.low32 ∈ left.truncate32 := by
  refine ⟨fun instruction next? family sound computes => ?_,
    fun order bits width => convertOrder_bits_mem order width leftMember,
    neg_mem leftMember, truncate32_mem leftMember⟩
  have sound := (Instruction.problem?_eq_none_iff.mp sound).2.2
  have operand : instruction.arithmeticProblem? = none := by
    rcases family with family | family <;> rwa [family] at sound
  rcases Instruction.arithmetic_of_arithmeticProblem? operand with ⟨operation, named⟩ | ⟨order, _⟩
  · exact ⟨operation, named, evaluate_mem named leftMember rightMember⟩
  · exact absurd order computes

/-- A remainder by zero, of a word among words on both sides of the sign boundary. -/
theorem acceptable_remainder_mem :
    (0x8000000000000000 : Word) ∈
        (⟨.unknown, 0x7fffffffffffffff, 0x8000000000000001, Word.signedLeast,
          Word.signedGreatest⟩ : Bounds) ∧
      (0 : Word) ∈ (unknown : Bounds) ∧
      ∃ operation, Arithmetic.ofCode? 0x90 = some operation ∧
        Execution.evaluate .whole operation 0x8000000000000000 0 ∈
          (⟨.unknown, 0x7fffffffffffffff, 0x8000000000000001, Word.signedLeast,
            Word.signedGreatest⟩ : Bounds).applyCode 0x90 unknown := by
  have dividend : (0x8000000000000000 : Word) ∈
      (⟨.unknown, 0x7fffffffffffffff, 0x8000000000000001, Word.signedLeast,
        Word.signedGreatest⟩ : Bounds) := by
    decide
  rcases (acceptable_arithmetic_mem dividend (mem_unknown 0)).1 ⟨0x9f, 1, 2, 0, 0⟩ none
    (.inl rfl) (by decide) (by decide) with ⟨operation, named, whole, _⟩
  exact ⟨dividend, mem_unknown 0, operation, named, whole⟩

end Bounds

end PacketFilter
