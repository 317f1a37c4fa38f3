import PacketFilter.Map.Kind
import PacketFilter.Verifier.Access

/-!
# The focus of the walk

The checks of single instructions work on a `Focus`: the abstract state of the
path being walked, together with what is counted over all paths.  They also
need to know where the program will be attached and which maps it declares.
-/

namespace PacketFilter

/-- What the checks know about the program as a whole. -/
structure Setting where
  attach : AttachPoint
  /-- The schemas of the declared maps, in order. -/
  schemas : Array Schema
  deriving Repr

/-- The state being worked on and what is counted over the whole walk. -/
structure Focus where
  state : AbstractState
  /-- The last identity handed out. -/
  lastIdentity : Nat := 0
  /-- The greatest distance below the frame register of a load or store. -/
  deepestAccess : Nat := 0
  helperCalls : Nat := 0
  deriving DecidableEq, Repr

/-- Where control goes from an instruction. -/
inductive Course where
  | next
  | jump
  /-- The states on the edge of a branch that is taken and on the one that falls through; nothing
  where no run can go. -/
  | branch (taken? fall? : Option AbstractState)
  | exit

namespace Focus

/-- A fresh identity. -/
def freshIdentity (focus : Focus) : Nat × Focus :=
  (focus.lastIdentity + 1, { focus with lastIdentity := focus.lastIdentity + 1 })

/-- The value of a register, which has to be initialized. -/
def read (focus : Focus) (name : RegisterName) : Checked AbstractValue := do
  let value := focus.state.register name
  demand value.isInitialized (.registerUnreadable name.val)
  return value

/-- Replace what is known about a register. -/
def write (focus : Focus) (name : RegisterName) (value : AbstractValue) : Focus :=
  { focus with state := focus.state.setRegister name value }

/-- Replace what is known about the frame. -/
def withStack (focus : Focus) (stack : StackFrame) : Focus :=
  { focus with state := { focus.state with stack } }

/-- Remember how deep into the frame an access reached. -/
def touchStack (focus : Focus) (offset : Int) : Focus :=
  { focus with deepestAccess := max focus.deepestAccess offset.natAbs }

end Focus

namespace Setting

/-- The schema of a declared map, by its index. -/
def schema? (setting : Setting) (mapIndex : Nat) : Option Schema :=
  setting.schemas[mapIndex]?

/-- The schema of a declared map. -/
def schemaOf (setting : Setting) (mapIndex : Nat) : Checked Schema :=
  match setting.schema? mapIndex with
  | some schema => .ok schema
  | none => .error (.noMapAt mapIndex)

end Setting

/-- The cause that a stack error is reported as. -/
def StackError.cause (error : StackError) (offset : Int) (size : Nat) : RejectionCause :=
  match error with
  | .outOfBounds => .stackAccess offset size
  | .uninitialized position => .stackUninitialized offset (position - offset) size
  | .pointerBytes position => .spilledPointerBytes position

/-- Turn the program away for a stack error. -/
def liftStack {α : Type} (offset : Int) (size : Nat) (result : Except StackError α) : Checked α :=
  result.mapError fun error => error.cause offset size

end PacketFilter
