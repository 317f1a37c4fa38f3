import PacketFilter.Map.Kind
import PacketFilter.Text.Quoted

/-!
# Errors of maps

Why a map refuses an operation, the message for people and the code that a
program gets to see.
-/

namespace PacketFilter

/-- Why a map refuses an operation. -/
inductive MapError where
  | full
  | keyExists
  | keyMissing
  | keySize (expected given : Nat)
  | valueSize (expected given : Nat)
  | indexOutOfRange (index limit : Nat)
  | unsupported (kind : MapKind) (operation : String)
  | invalidSchema (kind : MapKind) (problem : SchemaProblem)
  /-- A map is used as one of another kind or other sizes. -/
  | otherShape (name : String) (actual expected : MapKind × Nat × Nat)
  /-- A map is used as a ring buffer and is none. -/
  | notRing (name : String) (kind : MapKind)
  | duplicateName (name : String)
  | unknownName (name : String)
  | ringFull
  deriving DecidableEq, Repr

namespace MapError

/-- The error as a single word. -/
def label : MapError → String
  | full => "Full"
  | keyExists => "Exists"
  | keyMissing => "Missing"
  | keySize .. => "KeySize"
  | valueSize .. => "ValueSize"
  | indexOutOfRange .. => "IndexOutOfRange"
  | unsupported .. => "Unsupported"
  | invalidSchema .. | otherShape .. | notRing .. => "InvalidSchema"
  | duplicateName _ => "Duplicate"
  | unknownName _ => "NotFound"
  | ringFull => "RingFull"

/-- Kind and sizes as errors write them. -/
def shapeText (shape : MapKind × Nat × Nat) : String :=
  s!"{shape.1.name} key {shape.2.1} value {shape.2.2}"

/-- The error as one line. -/
def message : MapError → String
  | full => "map is full"
  | keyExists => "key already exists"
  | keyMissing => "key not found"
  | keySize expected given => s!"key size mismatch: expected {expected}, got {given}"
  | valueSize expected given => s!"value size mismatch: expected {expected}, got {given}"
  | indexOutOfRange index limit => s!"index {index} out of range (max {limit})"
  | unsupported kind operation => s!"{operation} not supported on {kind.name} maps"
  | invalidSchema kind problem => s!"invalid map schema: {kind.name} map: {problem.message}"
  | otherShape name actual expected =>
    "invalid map schema: map " ++ Text.Quoted.quote name ++
      s!" is {shapeText actual}, expected {shapeText expected}"
  | notRing name kind =>
    "invalid map schema: map " ++ Text.Quoted.quote name ++ s!" is {kind.name}, expected ringbuf"
  | duplicateName name => "map " ++ Text.Quoted.quote name ++ " already exists"
  | unknownName name => "map " ++ Text.Quoted.quote name ++ " not found"
  | ringFull => "ring buffer full"

/-- The negative number that a program gets for the error. -/
def code : MapError → Int
  | full => -7
  | keyExists => -17
  | keyMissing => -2
  | ringFull => -28
  | unsupported .. => -95
  | _ => -22

end MapError

end PacketFilter
