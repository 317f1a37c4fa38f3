import PacketFilter.Word

/-!
# Comparisons

The tests a conditional jump can make on two words, always read as
`left comparison right`.  Beside their opposites and mirror images this module
fixes what each one means, on whole words and on low halves.
-/

namespace PacketFilter

/-- A test on two words. -/
inductive Comparison where
  | equal
  | differ
  | above
  | atLeast
  | below
  | atMost
  | signedAbove
  | signedAtLeast
  | signedBelow
  | signedAtMost
  /-- Some bit is set in both operands. -/
  | sharesBit
  /-- No bit is set in both operands. -/
  | sharesNone
  deriving DecidableEq, Repr

namespace Comparison

/-- The comparison that holds exactly when this one does not. -/
def negate : Comparison → Comparison
  | equal => differ
  | differ => equal
  | above => atMost
  | atLeast => below
  | below => atLeast
  | atMost => above
  | signedAbove => signedAtMost
  | signedAtLeast => signedBelow
  | signedBelow => signedAtLeast
  | signedAtMost => signedAbove
  | sharesBit => sharesNone
  | sharesNone => sharesBit

/-- The comparison that says the same with its operands exchanged. -/
def swap : Comparison → Comparison
  | above => below
  | atLeast => atMost
  | below => above
  | atMost => atLeast
  | signedAbove => signedBelow
  | signedAtLeast => signedAtMost
  | signedBelow => signedAbove
  | signedAtMost => signedAtLeast
  | other => other

/-- The comparison reads its operands as signed numbers. -/
def isSigned : Comparison → Bool
  | signedAbove | signedAtLeast | signedBelow | signedAtMost => true
  | _ => false

/-- The right operand bounds the left one from above. -/
def boundsAbove : Comparison → Bool
  | below | atMost | signedBelow | signedAtMost => true
  | _ => false

/-- The right operand bounds the left one from below. -/
def boundsBelow : Comparison → Bool
  | above | atLeast | signedAbove | signedAtLeast => true
  | _ => false

/-- Equal operands fail an order comparison of this kind. -/
def isStrict : Comparison → Bool
  | above | below | signedAbove | signedBelow => true
  | _ => false

/-- The operator as listings write it. -/
def symbol : Comparison → String
  | equal => "=="
  | differ => "!="
  | above => ">"
  | atLeast => ">="
  | below => "<"
  | atMost => "<="
  | signedAbove => "s>"
  | signedAtLeast => "s>="
  | signedBelow => "s<"
  | signedAtMost => "s<="
  | sharesBit => "&"
  | sharesNone => "!&"

/-- Whether the comparison holds of two bit strings of one width. -/
def holds {width : Nat} (comparison : Comparison) (left right : BitVec width) : Bool :=
  match comparison with
  | equal => left == right
  | differ => left != right
  | above => right.ult left
  | atLeast => right.ule left
  | below => left.ult right
  | atMost => left.ule right
  | signedAbove => right.slt left
  | signedAtLeast => right.sle left
  | signedBelow => left.slt right
  | signedAtMost => left.sle right
  | sharesBit => left &&& right != 0
  | sharesNone => left &&& right == 0

/-- All comparisons, each with its symbol read off by `symbol`. -/
def all : List Comparison :=
  [equal, differ, above, atLeast, below, atMost,
    signedAbove, signedAtLeast, signedBelow, signedAtMost, sharesBit, sharesNone]

/-- The number a conditional jump names the comparison by; `sharesNone` has none. -/
def code? : Comparison → Option UInt8
  | equal => some 0x10
  | above => some 0x20
  | atLeast => some 0x30
  | sharesBit => some 0x40
  | differ => some 0x50
  | signedAbove => some 0x60
  | signedAtLeast => some 0x70
  | below => some 0xa0
  | atMost => some 0xb0
  | signedBelow => some 0xc0
  | signedAtMost => some 0xd0
  | sharesNone => none

/-- The comparison a conditional jump names by the given number. -/
def ofCode? (code : UInt8) : Option Comparison :=
  all.find? fun comparison => comparison.code? == some code

/-- The comparison written with the given operator. -/
def ofSymbol? (text : String) : Option Comparison :=
  all.find? fun comparison => comparison.symbol == text

end Comparison

end PacketFilter
