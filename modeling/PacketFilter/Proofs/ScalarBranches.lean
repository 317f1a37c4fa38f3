import PacketFilter.Proofs.Forking
import PacketFilter.Proofs.Narrowing

/-!
# Branches on scalars

What the two edges of a comparison of scalars come to, for any state whose
operands are scalars and any words within their bounds: the edge that the
machine takes is there and keeps the words, and an edge differs from the state
before the branch only by bounds that admit less.

There are no edges when the exclusion of a word overflows.  That takes bounds
in which an interval has shrunk to the first or the last word while the known
bits do not show it; bounds that have been synchronised are never of that kind.
-/

namespace PacketFilter

theorem Comparison.equal_of_negate
    {comparison : Comparison} (negated : comparison.negate = .differ) :
    comparison = .equal := by
  cases comparison <;> cases negated
  rfl

/-- The register is an operand of the comparison. -/
def Compares (left : RegisterName) (right : Operand) (name : RegisterName) : Prop :=
  name = left ∨ right = .register name

namespace AbstractState

variable {state edge : AbstractState} {machine : Machine} {width : Width}
variable {comparison : Comparison} {left : RegisterName} {right : Operand}

/-- The operands are scalars within whose bounds the machine holds its words. -/
def Admits (state : AbstractState) (left : RegisterName) (right : Operand) (machine : Machine) :
    Prop :=
  ∀ name, Compares left right name →
    (state.register name).isScalar ∧ machine.register name ∈ (state.register name).bounds

/-- Every register is as before, but for bounds that admit less. -/
def NarrowsTo (state edge : AbstractState) : Prop :=
  ∀ name, edge.register name =
      { state.register name with bounds := (edge.register name).bounds } ∧
    (edge.register name).bounds ⊆ (state.register name).bounds

theorem NarrowsTo.refl (state : AbstractState) : state.NarrowsTo state :=
  fun _ => ⟨rfl, Bounds.subset_refl _⟩

theorem register_setBounds (state : AbstractState) (name other : RegisterName) (bounds : Bounds) :
    (state.setBounds name bounds).register other =
      if name = other then { state.register other with bounds } else state.register other := by
  rw [setBounds, register_setRegister]
  split
  case isTrue same => rw [same]
  case isFalse => rfl

theorem register_setOperandBounds
    (state : AbstractState) (left : RegisterName) (right : Operand) (bounds : Bounds × Bounds)
    (name : RegisterName) :
    (state.setOperandBounds left right bounds).register name =
      { state.register name with
        bounds :=
          if right = .register name then bounds.2
          else if left = name then bounds.1
          else (state.register name).bounds } := by
  cases right with
  | immediate constant =>
      rw [if_neg (by rintro ⟨⟩)]
      simp only [setOperandBounds, register_setBounds]
      split <;> rfl
  | register other =>
      simp only [setOperandBounds, register_setBounds, Operand.register.injEq]
      split
      case isTrue => split <;> rfl
      case isFalse => split <;> rfl

/-- Both operands keep their words when each new bounds hold the word of their side. -/
theorem Admits.setOperandBounds
    {narrowed : Bounds × Bounds} {word' : Word}
    (admits : state.Admits left right machine)
    (inLeft : machine.register left ∈ narrowed.1) (inRight : word' ∈ narrowed.2)
    (same : ∀ name, right = .register name → machine.register name = word') :
    (state.setOperandBounds left right narrowed).Admits left right machine := by
  intro name compares
  rw [register_setOperandBounds]
  refine ⟨(admits name compares).1, ?_⟩
  dsimp only
  split
  case isTrue isRight => rwa [same name isRight]
  case isFalse notRight =>
    rcases compares with rfl | isRight
    · rwa [if_pos rfl]
    · exact absurd isRight notRight

/-- Edges are missing only where one of them takes the operands to differ, and an end is not
settled. -/
theorem scalarEdges?_of_endsSettled
    {leftBounds rightBounds : Bounds}
    (settled : comparison = .equal ∨ comparison = .differ →
      leftBounds.EndsSettled ∧ rightBounds.EndsSettled) :
    ∃ edges,
      scalarEdges? state width comparison left right leftBounds rightBounds = some edges := by
  have refines (shown : Comparison)
      (differ : shown = .differ → comparison = .equal ∨ comparison = .differ) :
      ∃ edge?, refinedEdge? state shown left right leftBounds rightBounds = some edge? := by
    rcases Bounds.refine?_of_endsSettled shown (fun isDiffer => settled (differ isDiffer)) with
      ⟨narrowed?, refined⟩
    exact ⟨_, by rw [refinedEdge?, refined]; rfl⟩
  unfold scalarEdges?
  split
  case isTrue => exact ⟨_, rfl⟩
  case isFalse =>
    split
    case h_1 => exact ⟨_, rfl⟩
    case h_2 => exact ⟨_, rfl⟩
    case h_3 =>
      rcases refines comparison .inr with ⟨taken?, taken⟩
      rcases refines comparison.negate (fun isDiffer => .inl (Comparison.equal_of_negate isDiffer))
        with ⟨fall?, fall⟩
      rw [taken, fall]
      exact ⟨_, rfl⟩

end AbstractState

theorem Focus.read_of_scalar
    {focus : Focus} {name : RegisterName}
    (scalar : (focus.state.register name).isScalar) :
    focus.read name = .ok (focus.state.register name) := by
  refine Focus.read_eq_ok.mpr ⟨rfl, ?_⟩
  rw [beq_iff_eq.mp scalar]
  decide

section

variable {focus : Focus} {width : Width} {comparison : Comparison}
variable {left : RegisterName} {right : Operand}

theorem checkBranch_of_scalars
    {rightValue : AbstractValue}
    (leftScalar : (focus.state.register left).isScalar)
    (compared : comparand focus width comparison right = .ok rightValue)
    (rightScalar : rightValue.isScalar) :
    checkBranch focus width comparison left right =
      match scalarEdges? focus.state width comparison left right (focus.state.register left).bounds
        rightValue.bounds with
      | some edges => .ok edges
      | none => .error .boundsOverflow := by
  rw [checkBranch, Focus.read_of_scalar leftScalar, compared]
  exact if_pos ⟨leftScalar, rightScalar⟩

end

/-- The second argument register holds a scalar of the given bounds. -/
def Focus.bounded (bounds : Bounds) : Focus where
  state := AbstractState.entry.setRegister .second (.scalar bounds)

end PacketFilter
