import PacketFilter.Verifier.Focus

/-!
# Checking exits

At an exit no reserved record is held, and the result register holds a scalar
that can only be a verdict code of the attach point.
-/

namespace PacketFilter

/-- The state may leave the program. -/
def checkExit (state : AbstractState) (attach : AttachPoint) : Checked Unit := do
  if let some reference := state.references.head? then
    throw (.referenceHeld reference)
  let result := state.register RegisterName.result
  demand result.isInitialized .resultUnreadable
  demand result.isScalar (.resultPointer result.kind)
  let (least, greatest) := attach.verdictRange
  let low := result.bounds.unsignedMin.toNat
  let high := result.bounds.unsignedMax.toNat
  demand ((least ≤ low ∧ low ≤ greatest) ∧ (least ≤ high ∧ high ≤ greatest))
    (.resultRange low high least greatest)

end PacketFilter
