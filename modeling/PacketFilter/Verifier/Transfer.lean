import PacketFilter.Verifier.Atomic
import PacketFilter.Verifier.Branch
import PacketFilter.Verifier.Call
import PacketFilter.Verifier.Compute
import PacketFilter.Verifier.Exit
import PacketFilter.Verifier.Memory

/-!
# The effect of one operation

What an operation demands of the state before it, what is known after it, and
where control goes.
-/

namespace PacketFilter

/-- Check one operation and carry it out on what is known. -/
def transfer (setting : Setting) (focus : Focus) (operation : Operation) :
    Checked (Focus × Course) := do
  match operation with
  | .compute width arithmetic destination operand =>
    return (← checkCompute focus width arithmetic destination operand, .next)
  | .convertOrder order bits destination =>
    return (← checkConvertOrder focus order bits destination, .next)
  | .load size destination base offset =>
    return (← checkLoad setting focus size destination base offset, .next)
  | .store size base offset value =>
    return (← checkStore setting focus size base offset value, .next)
  | .atomic operation size base source offset =>
    return (← checkAtomic setting focus operation size base source offset, .next)
  | .loadConstant destination value => return (focus.write destination (.constant value), .next)
  | .loadMap destination index => return (← checkLoadMap setting focus destination index, .next)
  | .jump => return (focus, .jump)
  | .branch width comparison left right =>
    let edges ← checkBranch focus width comparison left right
    return (focus, .branch edges.taken? edges.fall?)
  | .call helper => return (← checkCall setting focus helper, .next)
  | .exit =>
    checkExit focus.state setting.attach
    return (focus, .exit)

end PacketFilter
