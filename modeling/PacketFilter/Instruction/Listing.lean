import PacketFilter.Helper
import PacketFilter.Instruction.Operation
import PacketFilter.Numeral

/-!
# Program listings

How instructions are written for people: one line for each, with the position
in front, the destination of a jump and the raw encoding behind where these
are asked for.  Every slot has a line, also one that encodes nothing.
-/

namespace PacketFilter

/-- What a listing shows beside the instructions. -/
structure ListingStyle where
  showsPositions : Bool := true
  showsEncoding : Bool := false
  showsDestinations : Bool := true
  deriving Repr

namespace Arithmetic

/-- The assignment sign a listing writes for the operation. -/
def sign : Arithmetic → String
  | add => "+="
  | sub => "-="
  | mul => "*="
  | div => "/="
  | or => "|="
  | and => "&="
  | shiftLeft => "<<="
  | shiftRight => ">>="
  | mod => "%="
  | xor => "^="
  | move => "="
  | signedShiftRight => "s>>="
  | neg => "?="

end Arithmetic

namespace Instruction

def immediateText (instruction : Instruction) : String :=
  toString instruction.immediate.toInt

/-- The offset with its sign, whichever that is. -/
def offsetText (instruction : Instruction) : String :=
  Numeral.signed instruction.offset.toInt

/-- The memory operand at the given register. -/
def memoryText (instruction : Instruction) (base : UInt8) : String :=
  s!"*({instruction.accessSize.name} *)(r{base} {instruction.offsetText})"

/-- An arithmetic instruction as an assignment; the bank names the registers by their width. -/
def arithmeticText (instruction : Instruction) (bank : String) : String :=
  let target := s!"{bank}{instruction.destination}"
  if instruction.operationField = Arithmetic.neg.code then
    s!"{target} = -{target}"
  else if instruction.operationField = Opcode.convertOrder then
    let order := if instruction.hasRegisterOperand then "be" else "le"
    s!"r{instruction.destination} = {order}{instruction.immediateText} r{instruction.destination}"
  else
    let sign := ((Arithmetic.ofCode? instruction.operationField).map Arithmetic.sign).getD "?="
    let operand :=
      if instruction.hasRegisterOperand then s!"{bank}{instruction.source}"
      else instruction.immediateText
    s!"{target} {sign} {operand}"

/-- The verb of a locked update; exchanges are told by the immediate without its fetch bit. -/
def atomicVerb (immediate : Int32) : String :=
  let base := immediate &&& ~~~AtomicOperation.fetchBit
  let isExchange :=
    immediate == AtomicOperation.exchangeCode || immediate == AtomicOperation.compareExchangeCode
  let verb :=
    match Combination.ofCode? base with
    | some combination => combination.name
    | none => if base = 0xe0 then "xchg" else if base = 0xf0 then "cmpxchg" else "atomic?"
  verb ++ (if AtomicOperation.fetches immediate && !isExchange then "_fetch" else "")

/-- A jump, a call or an exit; the bank names the registers of a comparison by their width. -/
def jumpText (instruction : Instruction) (bank : String) : String :=
  if instruction.operationField = Opcode.jumpAlways then
    s!"goto {instruction.offsetText}"
  else if instruction.operationField = Opcode.exit then
    "exit"
  else if instruction.operationField = Opcode.call then
    match Helper.ofImmediate? instruction.immediate with
    | some helper => s!"call {helper.name}#{instruction.immediateText}"
    | none => s!"call #{instruction.immediateText}"
  else
    let symbol := ((Comparison.ofCode? instruction.operationField).map Comparison.symbol).getD "?"
    let operand :=
      if instruction.hasRegisterOperand then s!"{bank}{instruction.source}"
      else Numeral.hex instruction.immediate.toBitVec.toNat
    s!"if {bank}{instruction.destination} {symbol} {operand} goto {instruction.offsetText}"

/-- The number a two-slot load carries; a missing second slot counts as zero. -/
def wideText (instruction : Instruction) (next? : Option Instruction) : String :=
  Numeral.hex (wideImmediate instruction (next?.getD default)).toNat

/-- One instruction without position or notes; the slot after it completes a two-slot load. -/
def text (instruction : Instruction) (next? : Option Instruction) : String :=
  match instruction.family with
  | .arithmetic => instruction.arithmeticText "r"
  | .arithmetic32 => instruction.arithmeticText "w"
  | .load => s!"r{instruction.destination} = {instruction.memoryText instruction.source}"
  | .storeImmediate =>
    s!"{instruction.memoryText instruction.destination} = {instruction.immediateText}"
  | .storeRegister =>
    let target := instruction.memoryText instruction.destination
    if instruction.isAtomic then
      s!"lock {target} {atomicVerb instruction.immediate} r{instruction.source}"
    else
      s!"{target} = r{instruction.source}"
  | .wideLoad =>
    if instruction.isWideLoad then
      if instruction.source = mapHandleMarker then
        s!"r{instruction.destination} = map[{instruction.immediateText}]"
      else
        s!"r{instruction.destination} = {instruction.wideText next?} ll"
    else
      s!"(bad 0x{Numeral.paddedHex 2 instruction.code.toNat})"
  | .jump => instruction.jumpText "r"
  | .jump32 => instruction.jumpText "w"

/-- The raw fields in hexadecimal. -/
def encodingText (instruction : Instruction) : String :=
  let code := Numeral.paddedHex 2 instruction.code.toNat
  let registers :=
    Numeral.hexDigits instruction.source.toNat ++ Numeral.hexDigits instruction.destination.toNat
  let offset := Numeral.paddedHex 4 instruction.offset.toBitVec.toNat
  let immediate := Numeral.paddedHex 8 instruction.immediate.toBitVec.toNat
  s!"{code} {registers} {offset} {immediate}"

end Instruction

namespace Code

/-- The line of one slot; empty when there is no such slot. -/
def listingLine (code : Code) (style : ListingStyle) (position : Nat) : String :=
  match code[position]? with
  | none => ""
  | some instruction =>
    let start :=
      if style.showsPositions then Numeral.padLeft ' ' 4 (toString position) ++ ": " else ""
    let destination :=
      if style.showsDestinations && instruction.isJump then
        s!" <{instruction.jumpDestination position}>"
      else ""
    let encoding :=
      if style.showsEncoding then "    ; " ++ instruction.encodingText else ""
    start ++ instruction.text code[position + 1]? ++ destination ++ encoding

/-- One line for every instruction; second halves of two-slot loads have none. -/
def listing (code : Code) (style : ListingStyle) : String :=
  String.join (code.starts.map fun position => code.listingLine style position ++ "\n")

end Code

end PacketFilter
