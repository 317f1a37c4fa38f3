/-!
# The context record

What a program is handed a pointer to: where the packet begins and ends, where
it came from, and some scratch memory.
-/

namespace PacketFilter

/-- The fields of the context record. -/
inductive ContextField where
  | packetStart
  | packetEnd
  | interface
  | queue
  | scratch
  deriving DecidableEq, Repr

namespace ContextField

/-- Where the field starts in the record. -/
def offset : ContextField → Nat
  | packetStart => 0
  | packetEnd => 8
  | interface => 16
  | queue => 20
  | scratch => 24

def size : ContextField → Nat
  | packetStart => 8
  | packetEnd => 8
  | interface => 4
  | queue => 4
  | scratch => 32

/-- Programs may store into the scratch area and nowhere else in the record. -/
def isWritable : ContextField → Bool
  | scratch => true
  | _ => false

/-- The field holds an address, which is loaded whole or not at all. -/
def isPointer : ContextField → Bool
  | packetStart | packetEnd => true
  | _ => false

/-- Where the field ends in the record. -/
def limit (field : ContextField) : Nat :=
  field.offset + field.size

/-- The fields, in the order in which they lie in the record. -/
def all : List ContextField :=
  [packetStart, packetEnd, interface, queue, scratch]

/-- The field as a single word. -/
def label : ContextField → String
  | packetStart => "Data"
  | packetEnd => "DataEnd"
  | interface => "IngressIfindex"
  | queue => "RxQueueIndex"
  | scratch => "Scratch"

/-- The size of the whole record. -/
def recordSize : Nat := 56

/-- The field that holds the byte at an offset. -/
def atOffset? (offset : Int) : Option ContextField :=
  all.find? fun field => (field.offset : Int) ≤ offset && offset < field.limit

end ContextField

end PacketFilter
