import PacketFilter.Bounds.Branch
import PacketFilter.Verifier.Focus

/-!
# Checking branches

A comparison that the bounds settle leaves one edge; otherwise each edge has a
state of its own, narrowed by what the comparison shows there.  Scalars have
their bounds refined, a nullable pointer compared with zero is settled, and a
packet pointer compared with the end of the packet gains range.
-/

namespace PacketFilter

/-- The states on the two edges of a branch; nothing where no run can go. -/
structure Edges where
  taken? : Option AbstractState
  fall? : Option AbstractState

namespace Edges

/-- Nothing is learnt on either edge. -/
def unchanged (state : AbstractState) : Edges :=
  ⟨some state, some state⟩

end Edges

/-- The right operand of a comparison; unsigned 32-bit comparisons take their immediate
zero-extended. -/
def comparand (focus : Focus) (width : Width) (comparison : Comparison) :
    Operand → Checked AbstractValue
  | .register name => focus.read name
  | .immediate value =>
    if width = .half ∧ !comparison.isSigned then
      .ok (.constant (Word.ofImmediate32 value))
    else
      .ok (.constant (Word.ofImmediate value))

/-- Replace the bounds of a register. -/
def AbstractState.setBounds (state : AbstractState) (name : RegisterName) (bounds : Bounds) :
    AbstractState :=
  state.setRegister name { state.register name with bounds }

/-- Replace the bounds of both operands; the right one last, should they be the same register. -/
def AbstractState.setOperandBounds (state : AbstractState) (left : RegisterName)
    (right : Operand) (bounds : Bounds × Bounds) : AbstractState :=
  let state := state.setBounds left bounds.1
  match right with
  | .register name => state.setBounds name bounds.2
  | .immediate _ => state

/-- The edge on which a comparison of scalars is known to hold.  The outer option is empty when the
refinement of the bounds overflows. -/
def refinedEdge? (state : AbstractState) (comparison : Comparison) (left : RegisterName)
    (right : Operand) (leftBounds rightBounds : Bounds) : Option (Option AbstractState) :=
  (Bounds.refine? comparison leftBounds rightBounds).map fun narrowed? =>
    narrowed?.map (state.setOperandBounds left right)

/-- The edges of a comparison of scalars.  A 32-bit comparison shows something only where it is
the same as the comparison of the whole registers.  There are none when the refinement of the bounds
for one of them overflows. -/
def scalarEdges? (state : AbstractState) (width : Width) (comparison : Comparison)
    (left : RegisterName) (right : Operand) (leftBounds rightBounds : Bounds) : Option Edges :=
  if width = .half ∧
      !(leftBounds.fitsHalf comparison && rightBounds.fitsHalf comparison) then
    some (.unchanged state)
  else
    match Bounds.decide? comparison leftBounds rightBounds with
    | some true => some ⟨some state, none⟩
    | some false => some ⟨none, some state⟩
    | none => do
      let taken? ← refinedEdge? state comparison left right leftBounds rightBounds
      let fall? ← refinedEdge? state comparison.negate left right leftBounds rightBounds
      return { taken?, fall? }

/-- The pointer of a null check: a nullable pointer compared with the scalar zero, on either
side. -/
def nullChecked? (left right : AbstractValue) : Option AbstractValue :=
  if left.mayBeNull ∧ right.constant? = some 0 then some left
  else if right.mayBeNull ∧ left.constant? = some 0 then some right
  else none

/-- The edges of a null check. -/
def nullCheckEdges? (state : AbstractState) (comparison : Comparison)
    (left right : AbstractValue) : Option Edges := do
  let pointer ← nullChecked? left right
  let isNull := state.settleNull pointer true
  let isThere := state.settleNull pointer false
  match comparison with
  | .equal => some ⟨some isNull, some isThere⟩
  | .differ => some ⟨some isThere, some isNull⟩
  | _ => none

/-- The edges of a comparison of a packet pointer with the end of the packet, read with the pointer
on the left. -/
def packetEdges (state : AbstractState) (comparison : Comparison) (left right : AbstractValue) :
    Edges :=
  let pointer := if left.kind = .packet then left else right
  { taken? := some (state.learnRange pointer comparison)
    fall? := some (state.learnRange pointer comparison.negate) }

/-- The edges of a comparison in which a pointer takes part. -/
def pointerEdges (state : AbstractState) (width : Width) (comparison : Comparison)
    (leftName : RegisterName) (left right : AbstractValue) : Checked Edges := do
  match nullCheckEdges? state comparison left right with
  | some edges => return edges
  | none =>
    match packetEndComparison? left right comparison with
    | some oriented =>
      demand (width = .whole) .packetComparison32
      return packetEdges state oriented left right
    | none =>
      demand (left.isPointer ∧ right.isPointer ∧ left.kind = right.kind ∧ !left.mayBeNull)
        (.comparison leftName.val left.kind right.kind)
      return .unchanged state

def checkBranch (focus : Focus) (width : Width) (comparison : Comparison) (left : RegisterName)
    (right : Operand) : Checked Edges := do
  let leftValue ← focus.read left
  let rightValue ← comparand focus width comparison right
  if leftValue.isScalar ∧ rightValue.isScalar then
    match scalarEdges? focus.state width comparison left right leftValue.bounds
      rightValue.bounds with
    | some edges => return edges
    | none => throw .boundsOverflow
  else
    pointerEdges focus.state width comparison left leftValue rightValue

end PacketFilter
