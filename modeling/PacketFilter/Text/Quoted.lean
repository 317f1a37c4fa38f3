import PacketFilter.Numeral
import PacketFilter.Text.Extending
import PacketFilter.Text.Formless

/-!
# Quoted text

Names in messages stand between double quotes.  A quote, a backslash and the
common control characters have short escapes.  A character that shows nothing
by itself, or would be drawn onto its neighbour, is written by its number.
-/

namespace PacketFilter.Text.Quoted

/-- The halfwidth voiced and semi-voiced sound marks.  They extend the character before them, but
are drawn in a cell of their own. -/
def isSpacingMark (character : Char) : Bool :=
  0xff9e ≤ character.toNat && character.toNat ≤ 0xff9f

/-- Whether a character is drawn between quotes as it is. -/
def isVisible (character : Char) : Bool :=
  !isFormless character && (!isExtending character || isSpacingMark character)

/-- How one character is written between quotes. -/
def escape (character : Char) : String :=
  if character = '"' then "\\\""
  else if character = '\\' then "\\\\"
  else if character = '\t' then "\\t"
  else if character = '\n' then "\\n"
  else if character = '\r' then "\\r"
  else if character.toNat = 0 then "\\0"
  else if isVisible character then character.toString
  else "\\u\x7b" ++ Numeral.hexDigits character.toNat ++ "\x7d"

/-- The text between double quotes. -/
def quote (text : String) : String :=
  "\"" ++ String.join (text.toList.map escape) ++ "\""

end PacketFilter.Text.Quoted
