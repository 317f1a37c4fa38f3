/-!
# Kinds of abstract values

What the verifier may know a register to hold.
-/

namespace PacketFilter

/-- The kind of value in a register or in a spilled stack slot. -/
inductive ValueKind where
  | uninitialized
  | scalar
  | context
  | stack
  | packet
  | packetEnd
  | mapHandle
  | mapValue
  | record
  deriving DecidableEq, Repr

namespace ValueKind

/-- The name of the kind in logs and rejections. -/
def name : ValueKind → String
  | uninitialized => "?"
  | scalar => "scalar"
  | context => "ctx"
  | stack => "fp"
  | packet => "pkt"
  | packetEnd => "pkt_end"
  | mapHandle => "map_ptr"
  | mapValue => "map_value"
  | record => "ringbuf_mem"

/-- Every kind, in the order of declaration. -/
def all : List ValueKind :=
  [uninitialized, scalar, context, stack, packet, packetEnd, mapHandle, mapValue, record]

/-- The kind that logs and rejections call by the name. -/
def ofName? (name : String) : Option ValueKind :=
  all.find? fun kind => kind.name == name

/-- Everything that holds a value but a scalar; a map handle counts as a pointer. -/
def isPointer : ValueKind → Bool
  | uninitialized | scalar => false
  | _ => true

end ValueKind

end PacketFilter
