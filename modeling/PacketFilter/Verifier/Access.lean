import PacketFilter.Abstract.State
import PacketFilter.Context
import PacketFilter.Rejection

/-!
# Memory regions

Which accesses to the context, to packet data and to regions of fixed size are
known to stay inside them, and what a comparison with the end of the packet
shows about the length of the packet.
-/

namespace PacketFilter

/-- A result or the cause for which the program is turned away. -/
abbrev Checked := Except RejectionCause

/-- Let the demand be met or turn the program away. -/
def demand (condition : Prop) [Decidable condition] (cause : RejectionCause) : Checked Unit :=
  if condition then .ok () else .error cause

/-! ## The context -/

namespace ContextField

/-- What loading a field, or a part of one that is not a pointer, gives. -/
def loaded (field : ContextField) (size : Nat) : AbstractValue :=
  match field with
  | packetStart => .packet
  | packetEnd => .packetEnd
  | _ => .scalar (.ofWidth size)

end ContextField

/-- A store into the context goes to the scratch area and carries a scalar. -/
def checkContextStore (field : ContextField) (offset : Int) (value : AbstractValue) :
    Checked AbstractValue := do
  demand field.isWritable (.contextReadOnly offset)
  demand value.isScalar (.contextScratchStore value.kind)
  return value

/-- A load from the context takes pointer fields whole. -/
def checkContextLoad (field : ContextField) (offset : Int) (size : Nat) :
    Checked AbstractValue := do
  demand (field.isPointer → offset = field.offset ∧ size = 8) (.contextPointerField field.offset)
  return field.loaded size

/-- An access to the context lies in one field.  The result is the value stored or loaded.  Where
the access ends is kept in a signed word. -/
def checkContextAccess (offset : Int) (size : Nat) (stored? : Option AbstractValue) :
    Checked AbstractValue := do
  let reach := Word.wrapSigned (offset + size)
  demand (0 ≤ offset ∧ reach ≤ ContextField.recordSize) (.contextAccess offset size)
  match ContextField.atOffset? offset with
  | none => throw (.contextOffset offset)
  | some field =>
    demand (reach ≤ field.limit) (.contextBoundary offset size)
    match stored? with
    | some value => checkContextStore field offset value
    | none => checkContextLoad field offset size

/-! ## Regions of fixed size -/

/-- An access at a fixed offset from a pointer whose variable part is bounded stays inside a
region of `limit` bytes. -/
def checkRegionAccess (pointer : AbstractValue) (offset : Int) (size limit : Nat) :
    Checked Unit := do
  let fixed := pointer.offset + offset
  let least := fixed + pointer.bounds.signedMin.toInt
  let reach := fixed + pointer.bounds.unsignedMax.toNat + size
  demand (0 ≤ pointer.bounds.signedMin.toInt ∧ 0 ≤ least) (.regionNegative pointer.kind least)
  demand (reach ≤ limit) (.regionAccess pointer.kind fixed size limit)

/-! ## The packet -/

/-- The largest offset into a packet that is reasoned about. -/
def packetOffsetLimit : Nat := 0xffff

/-- An access through a packet pointer stays inside the range known to be there.  Where the access
ends is kept in a signed word; below zero counts as too far. -/
def checkPacketAccess (pointer : AbstractValue) (offset : Int) (size : Nat) : Checked Unit := do
  let low := pointer.offset + offset
  let high := Word.wrapSigned (low + size)
  let greatest := pointer.bounds.unsignedMax.toNat
  demand (0 ≤ low) (.packetAccess low size)
  demand (0 ≤ pointer.bounds.signedMin.toInt) .packetNegativeOffset
  demand (0 ≤ high ∧ greatest + high ≤ packetOffsetLimit) (.packetTooFar greatest high)
  demand (high ≤ pointer.range) (.packetRange low size pointer.range)

/-- How many bytes from its base a packet pointer is known to have, where it compares in the given
way with the end of the packet. -/
def rangeShown? (pointer : AbstractValue) (comparison : Comparison) : Option Nat :=
  if pointer.offset < 0 then
    none
  else
    match comparison with
    | .atMost => some pointer.offset.toNat
    | .below => some (pointer.offset.toNat + 1)
    | _ => none

/-- Grant all copies of a packet pointer what its comparison with the end of the packet shows. -/
def AbstractState.learnRange (state : AbstractState) (pointer : AbstractValue)
    (comparison : Comparison) : AbstractState :=
  match rangeShown? pointer comparison with
  | some range => state.grantRange pointer.identity range
  | none => state

/-- The comparison with the packet pointer on the left, when the operands are a packet pointer and
the end of the packet. -/
def packetEndComparison? (left right : AbstractValue) (comparison : Comparison) :
    Option Comparison :=
  match left.kind, right.kind with
  | .packet, .packetEnd => some comparison
  | .packetEnd, .packet => some comparison.swap
  | _, _ => none

end PacketFilter
