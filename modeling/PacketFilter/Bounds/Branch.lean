import PacketFilter.Bounds.Basic
import PacketFilter.Comparison

/-!
# Comparisons of bounds

Two questions about `left comparison right` when only the bounds of the
operands are known: is the answer already settled, and what is left of the
bounds when it is known to hold.
-/

namespace PacketFilter

/-- What the bounds of the operands settle about a comparison. -/
inductive Decision where
  | always
  | never
  | open
  deriving DecidableEq, Repr

namespace Decision

/-- The decision that an answer stands for. -/
def ofAnswer? : Option Bool → Decision
  | some true => always
  | some false => never
  | none => .open

end Decision

namespace Bounds

/-- No word can be a member of both. -/
def areDisjoint (left right : Bounds) : Bool :=
  left.unsignedMax < right.unsignedMin || left.unsignedMin > right.unsignedMax ||
    left.signedMax.slt right.signedMin || right.signedMax.slt left.signedMin ||
      (left.bits.intersect? right.bits).isNone

/-- Whether the members are equal, when both are known or no word is a member of both. -/
def decideEqual? (left right : Bounds) : Option Bool :=
  match left.constant?, right.constant? with
  | some leftWord, some rightWord => some (leftWord == rightWord)
  | _, _ => if left.areDisjoint right then some false else none

/-- Whether the left members are above the right ones, when the unsigned intervals show it. -/
def decideAbove? (left right : Bounds) : Option Bool :=
  if left.unsignedMin > right.unsignedMax then some true
  else if left.unsignedMax ≤ right.unsignedMin then some false
  else none

/-- Whether the left members are at least the right ones, when the unsigned intervals show it. -/
def decideAtLeast? (left right : Bounds) : Option Bool :=
  if left.unsignedMin ≥ right.unsignedMax then some true
  else if left.unsignedMax < right.unsignedMin then some false
  else none

/-- `decideAbove?` of signed members. -/
def decideSignedAbove? (left right : Bounds) : Option Bool :=
  if right.signedMax.slt left.signedMin then some true
  else if left.signedMax.sle right.signedMin then some false
  else none

/-- `decideAtLeast?` of signed members. -/
def decideSignedAtLeast? (left right : Bounds) : Option Bool :=
  if right.signedMax.sle left.signedMin then some true
  else if left.signedMax.slt right.signedMin then some false
  else none

/-- Whether the members have a bit in common, when the known bits show it. -/
def decideSharesBit? (left right : Bounds) : Option Bool :=
  if left.bits.value &&& right.bits.value ≠ 0 then some true
  else if left.bits.unsignedMax &&& right.bits.unsignedMax = 0 then some false
  else none

/-- The answer to the comparison, when all members of the bounds agree on it. -/
def decide? (comparison : Comparison) (left right : Bounds) : Option Bool :=
  match comparison with
  | .equal => left.decideEqual? right
  | .differ => (left.decideEqual? right).map (!·)
  | .above => left.decideAbove? right
  | .atLeast => left.decideAtLeast? right
  | .below => right.decideAbove? left
  | .atMost => right.decideAtLeast? left
  | .signedAbove => left.decideSignedAbove? right
  | .signedAtLeast => left.decideSignedAtLeast? right
  | .signedBelow => right.decideSignedAbove? left
  | .signedAtMost => right.decideSignedAtLeast? left
  | .sharesBit => left.decideSharesBit? right
  | .sharesNone => (left.decideSharesBit? right).map (!·)

/-- Comparing low halves of members is the same as comparing the members. -/
def fitsHalf (bounds : Bounds) (comparison : Comparison) : Bool :=
  if comparison.isSigned then
    bounds.unsignedMax ≤ 0x7fffffff
  else
    bounds.unsignedMax ≤ 0xffffffff

/-- The answer to a comparison of low halves, given only where it is one of whole words. -/
def decideHalf? (comparison : Comparison) (left right : Bounds) : Option Bool :=
  if left.fitsHalf comparison && right.fitsHalf comparison then
    decide? comparison left right
  else
    none

/-- The end of an interval, one step on when it is the excluded word; nothing when the step leaves
the range of the interval. -/
def moveEnd? (step : Word → Word → Option Word) (word bound : Word) : Option Word :=
  if bound = word then step bound 1 else some bound

/--
The bounds without one word, which shows only where the word is the end of an
interval.  The inner option is empty when no other word is left, the outer one
when an end would have to move out of its range: nothing checks for that here,
and bounds that have been synchronised have no such end.
-/
def exclude? (bounds : Bounds) (word : Word) : Option (Option Bounds) :=
  if bounds.constant? = some word then
    some none
  else do
    let low ← moveEnd? Word.unsignedAdd? word bounds.unsignedMin
    let high ← moveEnd? Word.unsignedSub? word bounds.unsignedMax
    let signedLow ← moveEnd? Word.signedAdd? word bounds.signedMin
    let signedHigh ← moveEnd? Word.signedSub? word bounds.signedMax
    return some
      { bounds with
        unsignedMin := low
        unsignedMax := high
        signedMin := signedLow
        signedMax := signedHigh }

/-- Exclude the other side's word when it is known. -/
def excludeConstant? (bounds other : Bounds) : Option (Option Bounds) :=
  match other.constant? with
  | some word => bounds.exclude? word
  | none => some (some bounds)

/-- Go on with what there is; where there is nothing, nothing comes of it and nothing has failed. -/
def onward {α β : Type} (value? : Option α) (next : α → Option (Option β)) : Option (Option β) :=
  match value? with
  | some value => next value
  | none => some none

/-- The members of both. -/
def meet? (left right : Bounds) : Option Bounds := do
  let bits ← left.bits.intersect? right.bits
  Bounds.synchronize?
    { bits := bits
      unsignedMin := Word.unsignedMax left.unsignedMin right.unsignedMin
      unsignedMax := Word.unsignedMin left.unsignedMax right.unsignedMax
      signedMin := Word.signedMax left.signedMin right.signedMin
      signedMax := Word.signedMin left.signedMax right.signedMax }

/-- Both bounds synchronised, or nothing when one of them has no member. -/
def synchronizeBoth? (left right : Bounds) : Option (Bounds × Bounds) := do
  let left ← left.synchronize?
  let right ← right.synchronize?
  return (left, right)

/-- The other side's word is excluded on each side, the left one first. -/
def refineDiffer? (left right : Bounds) : Option (Option (Bounds × Bounds)) := do
  let left? ← left.excludeConstant? right
  onward left? fun left => do
    let right? ← right.excludeConstant? left
    onward right? fun right => some (synchronizeBoth? left right)

/-- The left ones start above the least of the right ones, which end below the greatest of the left
ones. -/
def refineAbove? (left right : Bounds) : Option (Bounds × Bounds) := do
  let floor ← right.unsignedMin.unsignedAdd? 1
  let left := { left with unsignedMin := Word.unsignedMax left.unsignedMin floor }
  let ceiling ← left.unsignedMax.unsignedSub? 1
  let right := { right with unsignedMax := Word.unsignedMin right.unsignedMax ceiling }
  synchronizeBoth? left right

/-- The left ones start no earlier than the right ones, which end no later than the left ones. -/
def refineAtLeast? (left right : Bounds) : Option (Bounds × Bounds) :=
  synchronizeBoth?
    { left with unsignedMin := Word.unsignedMax left.unsignedMin right.unsignedMin }
    { right with unsignedMax := Word.unsignedMin right.unsignedMax left.unsignedMax }

/-- `refineAbove?` of signed members. -/
def refineSignedAbove? (left right : Bounds) : Option (Bounds × Bounds) := do
  let floor ← right.signedMin.signedAdd? 1
  let left := { left with signedMin := Word.signedMax left.signedMin floor }
  let ceiling ← left.signedMax.signedSub? 1
  let right := { right with signedMax := Word.signedMin right.signedMax ceiling }
  synchronizeBoth? left right

/-- `refineAtLeast?` of signed members. -/
def refineSignedAtLeast? (left right : Bounds) : Option (Bounds × Bounds) :=
  synchronizeBoth?
    { left with signedMin := Word.signedMax left.signedMin right.signedMin }
    { right with signedMax := Word.signedMin right.signedMax left.signedMax }

/-- A single tested bit is known to be set. -/
def refineSharesBit? (left right : Bounds) : Option (Bounds × Bounds) := do
  match right.constant? with
  | none => synchronizeBoth? left right
  | some word =>
    if word.isPowerOfTwo then
      let bits ← left.bits.intersect? (KnownBits.masked word (~~~word))
      synchronizeBoth? { left with bits := bits } right
    else
      synchronizeBoth? left right

/-- Every tested bit is known to be clear. -/
def refineSharesNone? (left right : Bounds) : Option (Bounds × Bounds) := do
  match right.constant? with
  | none => synchronizeBoth? left right
  | some word =>
    let bits ← left.bits.intersect? (KnownBits.masked 0 (~~~word))
    synchronizeBoth? { left with bits := bits } right

/--
What is left of both operands' bounds once the comparison is known to hold;
the inner option is empty when it cannot hold.  The outer one is empty when
the exclusion of a word overflows.
-/
def refine? (comparison : Comparison) (left right : Bounds) :
    Option (Option (Bounds × Bounds)) :=
  match comparison with
  | .equal => some ((left.meet? right).map fun common => (common, common))
  | .differ => left.refineDiffer? right
  | .above => some (left.refineAbove? right)
  | .atLeast => some (left.refineAtLeast? right)
  | .below => some ((right.refineAbove? left).map Prod.swap)
  | .atMost => some ((right.refineAtLeast? left).map Prod.swap)
  | .signedAbove => some (left.refineSignedAbove? right)
  | .signedAtLeast => some (left.refineSignedAtLeast? right)
  | .signedBelow => some ((right.refineSignedAbove? left).map Prod.swap)
  | .signedAtMost => some ((right.refineSignedAtLeast? left).map Prod.swap)
  | .sharesBit => some (left.refineSharesBit? right)
  | .sharesNone => some (left.refineSharesNone? right)

end Bounds

end PacketFilter
