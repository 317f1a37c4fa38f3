/-!
# Written numbers

The ways numbers are written in listings, logs and messages: decimal with a
sign in front, hexadecimal, and either one padded to a width.
-/

namespace PacketFilter.Numeral

/-- Decimal digits with a sign in front, also when the number is not negative. -/
def signed (number : Int) : String :=
  if number < 0 then toString number else "+" ++ toString number

/-- Fill up on the left to at least `width` characters. -/
def padLeft (filler : Char) (width : Nat) (text : String) : String :=
  "".pushn filler (width - text.length) ++ text

/-- Lower-case hexadecimal digits. -/
def hexDigits (number : Nat) : String :=
  String.ofList (Nat.toDigits 16 number)

/-- Hexadecimal digits after the marker `0x`. -/
def hex (number : Nat) : String :=
  "0x" ++ hexDigits number

/-- Exactly as many hexadecimal digits as asked for, or more when the number needs them. -/
def paddedHex (width : Nat) (number : Nat) : String :=
  padLeft '0' width (hexDigits number)

end PacketFilter.Numeral
