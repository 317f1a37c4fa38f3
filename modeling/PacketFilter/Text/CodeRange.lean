/-!
# Ranges of characters

A class of characters given by the closed ranges of their code points, in
ascending order and apart from one another.
-/

namespace PacketFilter.Text

/-- The ranges, each by its first and its last code point. -/
abbrev CodeRanges := List (Nat × Nat)

/-- Whether the code point of the character lies in one of the ranges. -/
def CodeRanges.hold (ranges : CodeRanges) (character : Char) : Bool :=
  ranges.any fun range => range.1 ≤ character.toNat && character.toNat ≤ range.2

end PacketFilter.Text
