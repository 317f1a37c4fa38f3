import PacketFilter.Abstract.Kind
import PacketFilter.Arithmetic
import PacketFilter.AttachPoint
import PacketFilter.Helper
import PacketFilter.Instruction.Atomic
import PacketFilter.Map.Kind
import PacketFilter.Numeral
import PacketFilter.Word

/-!
# Rejections

Why a program is not let through.  Every cause belongs to one of ten reasons
and has one wording; a rejection adds the slot at which the cause was found,
and the end of the log once the verifier hands it out.
-/

namespace PacketFilter

/-- The general reason of a rejection. -/
inductive RejectionReason where
  | outOfBoundsAccess
  | unboundedLoop
  | typeMismatch
  | disallowedCall
  | complexityExceeded
  | malformedProgram
  | uninitializedRead
  | unreleasedReference
  | invalidReturn
  | mapSchemaMismatch
  deriving DecidableEq, Repr

namespace RejectionReason

/-- The reason in words. -/
def text : RejectionReason → String
  | outOfBoundsAccess => "out-of-bounds access"
  | unboundedLoop => "unbounded loop"
  | typeMismatch => "type mismatch"
  | disallowedCall => "disallowed call"
  | complexityExceeded => "complexity exceeded"
  | malformedProgram => "malformed program"
  | uninitializedRead => "uninitialized read"
  | unreleasedReference => "unreleased reference"
  | invalidReturn => "invalid return value"
  | mapSchemaMismatch => "map schema mismatch"

def label : RejectionReason → String
  | outOfBoundsAccess => "OutOfBoundsAccess"
  | unboundedLoop => "UnboundedLoop"
  | typeMismatch => "TypeMismatch"
  | disallowedCall => "DisallowedCall"
  | complexityExceeded => "ComplexityExceeded"
  | malformedProgram => "MalformedProgram"
  | uninitializedRead => "UninitializedRead"
  | unreleasedReference => "UnreleasedReference"
  | invalidReturn => "InvalidReturn"
  | mapSchemaMismatch => "MapSchemaMismatch"

end RejectionReason

/-- The exact cause of a rejection. -/
inductive RejectionCause where
  -- the shape of the program
  | emptyProgram
  | programTooLong (length limit : Nat)
  | invalidRegister
  | frameRegisterWritten
  | packetLoad
  | incompleteWideLoad
  | invalidWideLoadHalf
  | unknownWideLoad (marker : UInt8)
  | wideLoadReserved
  | arithmeticOffset
  | invalidShift (count : Int32)
  | negationReserved
  | unconditionalSwap
  | invalidOrderWidth (bits : Int32)
  | invalidArithmetic (code : UInt8)
  | arithmeticReserved
  | jumpReserved
  | subprogramCall
  | foreignCall
  | exitReserved
  | branchReserved
  | invalidJump (code : UInt8)
  | signExtendingLoad
  | atomicWidth
  | invalidAtomic (immediate : Int32)
  | invalidMemoryMode (mode : UInt8)
  | jumpOutOfRange (offset : Int)
  | jumpIntoWideLoad
  | missingExit
  | leftProgram
  | undecodable (code : UInt8)
  -- declared maps
  | mapNotRegistered (name : String)
  | mapShape (name : String) (actual expected : MapKind × Nat × Nat)
  | mapNotDeclared (index : Int)
  | noMapAt (index : Nat)
  -- loops
  | uncountedLoop (header : Nat)
  | unknownBackEdge (target : Nat)
  | counterNotScalar (register : UInt8)
  | limitNotScalar (register : UInt8)
  | tooManyTrips (trips limit : Nat)
  | unboundedTrips (header : Nat) (register : UInt8)
  | tooComplex (limit : Nat)
  -- registers and arithmetic
  | registerUnreadable (register : Nat)
  | pointerArithmetic32
  | pointerOperand (register : Nat)
  | partialPointerCopy (register : Nat)
  | scalarOpPointer (operation : Arithmetic)
  | pointerOp (operation : Arithmetic) (pointer : ValueKind)
  | pointerOffset (delta : Int)
  | packetVariableSub
  | packetVariableRange (low : Int) (high : Nat)
  | variableOffset (pointer : ValueKind)
  | nullableArithmetic (pointer : ValueKind)
  | fixedPointer (pointer : ValueKind)
  | pointerPair (operation : Arithmetic) (left right : ValueKind)
  -- memory
  | nullableAccess (pointer : ValueKind)
  | pointerStore (value target : ValueKind)
  | variableContextOffset
  | contextAccess (offset : Int) (size : Nat)
  | contextOffset (offset : Int)
  | contextBoundary (offset : Int) (size : Nat)
  | contextReadOnly (offset : Int)
  | contextScratchStore (value : ValueKind)
  | contextPointerField (offset : Int)
  | stackAccess (offset : Int) (size : Nat)
  | stackUninitialized (offset distance : Int) (size : Nat)
  | spilledPointerBytes (offset : Int)
  | packetWrite (attach : AttachPoint)
  | packetAccess (offset : Int) (size : Nat)
  | packetNegativeOffset
  | packetTooFar (greatest : Nat) (fixed : Int)
  | packetRange (offset : Int) (size range : Nat)
  | regionNegative (pointer : ValueKind) (least : Int)
  | regionAccess (pointer : ValueKind) (offset : Int) (size limit : Nat)
  | uninitializedAccess
  | invalidAccess (pointer : ValueKind)
  | atomicOperand (operation : AtomicOperation) (register : Nat)
  | comparandNotScalar
  | nullableAtomic (pointer : ValueKind)
  | misalignedAtomic (offset : Int) (size : Nat)
  | atomicSpilledPointer (offset : Int)
  | atomicTarget (pointer : ValueKind)
  -- comparisons
  | packetComparison32
  | comparison (register : Nat) (left right : ValueKind)
  /-- The check stops short, because the end of an interval would leave its range.  No walk comes
  to it. -/
  | boundsOverflow
  -- helper calls
  | unknownHelper (immediate : Int)
  | helperNotAllowed (helper : Helper) (attach : AttachPoint)
  | nullableMemory (register : Nat) (pointer : ValueKind)
  | notMemory (register : Nat) (kind : ValueKind)
  | notMapHandle (register : Nat) (kind : ValueKind)
  | mapKindRefused (kind : MapKind) (helper : Helper)
  | mapArgumentMissing (register : Nat)
  | sizeOutOfRange (register size limit : Nat) (helper : Helper)
  | sizeNotConstant (register : Nat) (helper : Helper)
  | notScalar (register : Nat) (kind : ValueKind)
  | invalidUpdateMode (register : Nat)
  | flagsNotZero (register : Nat)
  | notRecord (register : Nat) (kind : ValueKind)
  | releasedTwice (reference : Nat)
  -- exit
  | referenceHeld (reference : Nat)
  | resultUnreadable
  | resultPointer (kind : ValueKind)
  | resultRange (low high least greatest : Nat)
  deriving DecidableEq, Repr

namespace RejectionCause

/-- The general reason each cause counts as. -/
def reason : RejectionCause → RejectionReason
  | mapNotRegistered _ | mapShape .. | mapNotDeclared _ | noMapAt _ => .mapSchemaMismatch
  | uncountedLoop _ | unknownBackEdge _ | counterNotScalar _ | limitNotScalar _
  | tooManyTrips .. | unboundedTrips .. => .unboundedLoop
  | tooComplex _ => .complexityExceeded
  | registerUnreadable _ | stackUninitialized .. | uninitializedAccess | resultUnreadable =>
    .uninitializedRead
  | pointerOffset _ | packetVariableRange .. | contextAccess .. | contextOffset _
  | contextBoundary .. | stackAccess .. | packetAccess .. | packetNegativeOffset
  | packetTooFar .. | packetRange .. | regionNegative .. | regionAccess .. => .outOfBoundsAccess
  | pointerArithmetic32 | pointerOperand _ | partialPointerCopy _ | scalarOpPointer _
  | pointerOp .. | packetVariableSub | variableOffset _ | nullableArithmetic _ | fixedPointer _
  | pointerPair .. | nullableAccess _ | pointerStore .. | variableContextOffset
  | contextReadOnly _ | contextScratchStore _ | contextPointerField _ | spilledPointerBytes _
  | packetWrite _ | invalidAccess _ | atomicOperand .. | comparandNotScalar | nullableAtomic _
  | misalignedAtomic .. | atomicSpilledPointer _ | atomicTarget _ | packetComparison32
  | comparison .. | nullableMemory .. | notMemory .. | notMapHandle .. | mapKindRefused ..
  | mapArgumentMissing _ | sizeOutOfRange .. | sizeNotConstant .. | notScalar ..
  | invalidUpdateMode _ | flagsNotZero _ | notRecord .. => .typeMismatch
  | unknownHelper _ | helperNotAllowed .. => .disallowedCall
  | releasedTwice _ | referenceHeld _ => .unreleasedReference
  | resultPointer _ | resultRange .. => .invalidReturn
  | _ => .malformedProgram

/-- A map's kind and sizes as the schema messages write them. -/
def shapeText (shape : MapKind × Nat × Nat) : String :=
  s!"{shape.1.name} key={shape.2.1} value={shape.2.2}"

/-- The wording of each cause. -/
def message : RejectionCause → String
  | emptyProgram => "empty program"
  | programTooLong length limit => s!"program of {length} insns exceeds limit of {limit}"
  | invalidRegister => "invalid register number"
  | frameRegisterWritten => "frame pointer is read only"
  | packetLoad => "legacy packet loads are not supported"
  | incompleteWideLoad => "incomplete 64-bit immediate load"
  | invalidWideLoadHalf => "invalid second half of 64-bit immediate load"
  | unknownWideLoad marker => s!"unknown pseudo load {marker}"
  | wideLoadReserved => "64-bit immediate load uses reserved fields"
  | arithmeticOffset => "signed division and sign-extending moves are not supported"
  | invalidShift count => s!"invalid shift {count.toInt}"
  | negationReserved => "BPF_NEG uses reserved fields"
  | unconditionalSwap => "unconditional byte swap is not supported"
  | invalidOrderWidth bits => s!"invalid endian width {bits.toInt}"
  | invalidArithmetic code => s!"invalid ALU opcode {Numeral.hex code.toNat}"
  | arithmeticReserved => "BPF_ALU uses reserved fields"
  | jumpReserved => "BPF_JA uses reserved fields"
  | subprogramCall => "calls to subprograms are not supported"
  | foreignCall => "kernel function calls are not supported"
  | exitReserved => "BPF_EXIT uses reserved fields"
  | branchReserved => "conditional jump uses reserved fields"
  | invalidJump code => s!"invalid jump opcode {Numeral.hex code.toNat}"
  | signExtendingLoad => "sign-extending loads are not supported"
  | atomicWidth => "atomic access must be 4 or 8 bytes"
  | invalidAtomic immediate => s!"invalid atomic operation {Numeral.hex immediate.toBitVec.toNat}"
  | invalidMemoryMode mode => s!"invalid memory mode {Numeral.hex mode.toNat}"
  | jumpOutOfRange offset => s!"jump out of range {Numeral.signed offset}"
  | jumpIntoWideLoad => "jump into the middle of 64-bit immediate load"
  | missingExit => "last insn is not an exit or jmp"
  | leftProgram => "fell off the end of the program"
  | undecodable code => s!"unknown insn class {Numeral.hex code.toNat}"
  | mapNotRegistered name => s!"map '{name}' is not registered"
  | mapShape name actual expected =>
    s!"map '{name}' is {shapeText actual}, program expects {shapeText expected}"
  | mapNotDeclared index => s!"map index {index} not declared by the program"
  | noMapAt index => s!"no map at index {index}"
  | uncountedLoop header => s!"back-edge to {header} has no bounded induction register"
  | unknownBackEdge target => s!"back-edge to {target} has no loop shape"
  | counterNotScalar register => s!"loop counter r{register} is not a scalar"
  | limitNotScalar register => s!"loop bound r{register} is not a scalar"
  | tooManyTrips trips limit => s!"loop may run {trips} more times (limit {limit})"
  | unboundedTrips header register =>
    s!"cannot bound trips of loop at {header} from r{register} range"
  | tooComplex limit => s!"processed more than {limit} instructions"
  | registerUnreadable register => s!"R{register} !read_ok"
  | pointerArithmetic32 => "32-bit arithmetic on pointer prohibited"
  | pointerOperand register => s!"R{register} pointer arithmetic prohibited"
  | partialPointerCopy register => s!"R{register} partial copy of pointer"
  | scalarOpPointer operation => s!"scalar {operation.verb} pointer prohibited"
  | pointerOp operation pointer => s!"{operation.verb} on pointer {pointer.name} prohibited"
  | pointerOffset delta => s!"pointer offset {delta} out of range"
  | packetVariableSub => "cannot subtract variable offset from packet pointer"
  | packetVariableRange low high =>
    s!"packet offset must be in [0, 65535], got [{low}, {high}]"
  | variableOffset pointer => s!"variable offset on {pointer.name} pointer prohibited"
  | nullableArithmetic pointer =>
    s!"pointer arithmetic on {pointer.name}_or_null prohibited, null-check it first"
  | fixedPointer pointer => s!"pointer arithmetic on {pointer.name} prohibited"
  | pointerPair operation left right =>
    s!"{operation.verb} between {left.name} and {right.name} prohibited"
  | nullableAccess pointer => s!"invalid mem access '{pointer.name}_or_null'"
  | pointerStore value target => s!"cannot store {value.name} pointer into {target.name}"
  | variableContextOffset => "variable ctx access prohibited"
  | contextAccess offset size => s!"invalid ctx access off={offset} size={size}"
  | contextOffset offset => s!"invalid ctx access off={offset}"
  | contextBoundary offset size => s!"ctx access off={offset} size={size} crosses field boundary"
  | contextReadOnly offset => s!"ctx field at off={offset} is read-only"
  | contextScratchStore value => s!"cannot store {value.name} into ctx scratch"
  | contextPointerField offset =>
    s!"ctx pointer field at off={offset} must be loaded with 8 bytes"
  | stackAccess offset size => s!"invalid stack access off={offset} size={size}"
  | stackUninitialized offset distance size =>
    s!"invalid read from stack off {offset}+{distance} size {size}"
  | spilledPointerBytes offset => s!"partial access to spilled pointer at fp{offset}"
  | packetWrite attach => s!"cannot write into packet from {attach.name} program"
  | packetAccess offset size => s!"invalid access to packet, off={offset} size={size}"
  | packetNegativeOffset => "packet pointer has negative variable offset"
  | packetTooFar greatest fixed => s!"packet offset {greatest}+{fixed} too large"
  | packetRange offset size range =>
    s!"invalid access to packet, off={offset} size={size}, R range={range}"
  | regionNegative pointer least =>
    s!"invalid access to {pointer.name}, min offset {least} is negative"
  | regionAccess pointer offset size limit =>
    s!"invalid access to {pointer.name}, off={offset} size={size} value_size={limit}"
  | uninitializedAccess => "memory access through uninitialized register"
  | invalidAccess pointer => s!"invalid mem access '{pointer.name}'"
  | atomicOperand operation register =>
    s!"atomic {operation.name} operand R{register} must be a scalar"
  | comparandNotScalar => "cmpxchg comparand R0 must be a scalar"
  | nullableAtomic pointer => s!"atomic access through {pointer.name}_or_null"
  | misalignedAtomic offset size => s!"misaligned atomic access off={offset} size={size}"
  | atomicSpilledPointer offset => s!"atomic access to spilled pointer at fp{offset}"
  | atomicTarget pointer => s!"atomic access to {pointer.name} prohibited"
  | packetComparison32 => "32-bit packet pointer comparison prohibited"
  | comparison register left right =>
    s!"R{register} {left.name} comparison with {right.name} prohibited"
  | boundsOverflow => "end of an interval out of range"
  | unknownHelper immediate => s!"invalid func unknown#{immediate}"
  | helperNotAllowed helper attach =>
    s!"helper {helper.name} is not allowed in {attach.name} programs"
  | nullableMemory register pointer => s!"R{register} type={pointer.name}_or_null expected=mem"
  | notMemory register kind => s!"R{register} type={kind.name} expected=mem"
  | notMapHandle register kind => s!"R{register} type={kind.name} expected=map_ptr"
  | mapKindRefused kind helper => s!"cannot pass {kind.name} map to {helper.name}"
  | mapArgumentMissing register => s!"R{register} map argument missing"
  | sizeOutOfRange register size limit helper =>
    s!"R{register} size {size} not in [1, {limit}] for {helper.name}"
  | sizeNotConstant register helper =>
    s!"R{register} size argument of {helper.name} must be a constant"
  | notScalar register kind => s!"R{register} type={kind.name} expected=scalar"
  | invalidUpdateMode register => s!"R{register} invalid update flags"
  | flagsNotZero register => s!"R{register} flags must be 0"
  | notRecord register kind =>
    s!"R{register} type={kind.name} expected=ringbuf_mem at offset 0"
  | releasedTwice reference => s!"reference {reference} released twice"
  | referenceHeld reference =>
    s!"unreleased reference id={reference}, ring buffer record must be submitted or discarded"
  | resultUnreadable => "R0 !read_ok at exit"
  | resultPointer kind => s!"R0 leaks {kind.name} pointer at exit"
  | resultRange low high least greatest =>
    s!"R0 has value [{low}, {high}], should have been in [{least}, {greatest}]"

end RejectionCause

/-- A refusal to let a program through. -/
structure Rejection where
  /-- The slot the cause was found at, when it was found at one. -/
  position? : Option Nat
  cause : RejectionCause
  /-- The end of the verifier log. -/
  logTail : String := ""
  deriving DecidableEq, Repr

namespace Rejection

/-- A rejection of an instruction. -/
def atSlot (position : Nat) (cause : RejectionCause) : Rejection :=
  { position? := some position, cause }

/-- A rejection of the program as a whole. -/
def ofProgram (cause : RejectionCause) : Rejection :=
  { position? := none, cause }

/-- The reason that the cause falls under. -/
def reason (rejection : Rejection) : RejectionReason :=
  rejection.cause.reason

/-- Reason, slot and wording on one line. -/
def message (rejection : Rejection) : String :=
  let place := match rejection.position? with
    | some position => s!" at insn {position}"
    | none => ""
  s!"{rejection.reason.text}{place}: {rejection.cause.message}"

end Rejection

end PacketFilter
