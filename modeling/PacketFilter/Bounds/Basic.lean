import PacketFilter.KnownBits

/-!
# Bounds of a tracked value

`Bounds` describes a set of words three times over: by known bits, by an
unsigned interval and by a signed interval.  `synchronize` lets the three
views narrow one another; it changes which words a view admits but not which
words all three admit, and it notices when no word is left.

Bounds are taken as they are written.  `Sane` says that neither interval is
turned round; the transfer functions in `Arithmetic` and `Branch` speak about
members and leave unsynchronised bounds to their callers.
-/

namespace PacketFilter

/-- A set of words: those that lie in both intervals and agree with the known bits. -/
structure Bounds where
  bits : KnownBits
  unsignedMin : Word
  unsignedMax : Word
  signedMin : Word
  signedMax : Word
  deriving DecidableEq, Repr

namespace Bounds

instance : Membership Word Bounds where
  mem bounds word :=
    word ∈ bounds.bits ∧
      (bounds.unsignedMin ≤ word ∧ word ≤ bounds.unsignedMax) ∧
        (bounds.signedMin.sle word ∧ word.sle bounds.signedMax)

instance (word : Word) (bounds : Bounds) : Decidable (word ∈ bounds) :=
  inferInstanceAs (Decidable
    (word ∈ bounds.bits ∧
      (bounds.unsignedMin ≤ word ∧ word ≤ bounds.unsignedMax) ∧
        (bounds.signedMin.sle word ∧ word.sle bounds.signedMax)))

/-- Neither interval is turned round. -/
def Sane (bounds : Bounds) : Prop :=
  bounds.unsignedMin ≤ bounds.unsignedMax ∧ bounds.signedMin.sle bounds.signedMax

instance (bounds : Bounds) : Decidable bounds.Sane :=
  inferInstanceAs (Decidable
    (bounds.unsignedMin ≤ bounds.unsignedMax ∧ bounds.signedMin.sle bounds.signedMax))

/-- Every word. -/
def unknown : Bounds where
  bits := KnownBits.unknown
  unsignedMin := 0
  unsignedMax := Word.allOnes
  signedMin := Word.signedLeast
  signedMax := Word.signedGreatest

instance : Inhabited Bounds :=
  ⟨unknown⟩

/-- One word. -/
def constant (word : Word) : Bounds where
  bits := KnownBits.constant word
  unsignedMin := word
  unsignedMax := word
  signedMin := word
  signedMax := word

/-- The known bits spell one word, and so does the unsigned interval. -/
def isConstant (bounds : Bounds) : Bool :=
  bounds.bits.isConstant && bounds.unsignedMin == bounds.unsignedMax

/-- The only member, when the bounds are seen to have just one. -/
def constant? (bounds : Bounds) : Option Word :=
  if bounds.isConstant then some bounds.unsignedMin else none

/-- Both intervals are the whole range; the known bits are not consulted. -/
def isUnbounded (bounds : Bounds) : Bool :=
  bounds.unsignedMin == 0 && bounds.unsignedMax == Word.allOnes &&
    bounds.signedMin == Word.signedLeast && bounds.signedMax == Word.signedGreatest

/-- No member is negative when read as a signed number. -/
def isNonNegative (bounds : Bounds) : Bool :=
  bounds.signedMin.isNonNegative

/-- Replace the unsigned interval. -/
def withUnsigned (bounds : Bounds) (low high : Word) : Bounds :=
  { bounds with unsignedMin := low, unsignedMax := high }

/-- Replace the signed interval. -/
def withSigned (bounds : Bounds) (low high : Word) : Bounds :=
  { bounds with signedMin := low, signedMax := high }

/-- Forget the signed interval. -/
def withAnySigned (bounds : Bounds) : Bounds :=
  bounds.withSigned Word.signedLeast Word.signedGreatest

/-- Forget the unsigned interval. -/
def withAnyUnsigned (bounds : Bounds) : Bounds :=
  bounds.withUnsigned 0 Word.allOnes

/-- Both intervals narrowed to the extremes of the known bits. -/
def narrowByBits (bounds : Bounds) : Bounds where
  bits := bounds.bits
  unsignedMin := Word.unsignedMax bounds.unsignedMin bounds.bits.unsignedMin
  unsignedMax := Word.unsignedMin bounds.unsignedMax bounds.bits.unsignedMax
  signedMin := Word.signedMax bounds.signedMin bounds.bits.signedMin
  signedMax := Word.signedMin bounds.signedMax bounds.bits.signedMax

/--
The intervals narrowed by each other.  An interval that stays on one side of
the sign boundary orders its members alike in both readings, so its ends carry
over; when only the unsigned one does, it decides the sign of every member.
-/
def narrowAcrossSigns (bounds : Bounds) : Bounds :=
  if bounds.signedMin.isNonNegative || !bounds.signedMax.isNonNegative then
    let low := Word.unsignedMax bounds.unsignedMin bounds.signedMin
    let high := Word.unsignedMin bounds.unsignedMax bounds.signedMax
    { bounds with unsignedMin := low, unsignedMax := high, signedMin := low, signedMax := high }
  else if bounds.unsignedMax.isNonNegative then
    let high := Word.unsignedMin bounds.unsignedMax bounds.signedMax
    { bounds with
      unsignedMax := high, signedMin := bounds.unsignedMin, signedMax := high }
  else if !bounds.unsignedMin.isNonNegative then
    let low := Word.unsignedMax bounds.unsignedMin bounds.signedMin
    { bounds with
      unsignedMin := low, signedMin := low, signedMax := bounds.unsignedMax }
  else
    bounds

/--
Let the three views narrow one another.  The result is an `error` when they
leave no word, and then holds the bounds as far as they had been narrowed.
-/
def synchronize (bounds : Bounds) : Except Bounds Bounds :=
  let byBits := bounds.narrowByBits
  if ¬ byBits.Sane then
    .error byBits
  else
    let bySigns := byBits.narrowAcrossSigns
    if ¬ bySigns.Sane then
      .error bySigns
    else
      match bySigns.bits.intersect?
          (KnownBits.ofInterval bySigns.unsignedMin bySigns.unsignedMax) with
      | none => .error bySigns
      | some bits =>
        let narrowed := { bySigns with bits := bits }.narrowByBits
        if narrowed.Sane then .ok narrowed else .error narrowed

/-- The synchronised bounds, or nothing when they admit no word. -/
def synchronize? (bounds : Bounds) : Option Bounds :=
  bounds.synchronize.toOption

/-- The synchronised bounds; contradictory ones are given up for `unknown`. -/
def synchronized (bounds : Bounds) : Bounds :=
  bounds.synchronize?.getD unknown

/-- The words from `low` to `high`. -/
def ofInterval (low high : Word) : Bounds :=
  ({ unknown with
    bits := KnownBits.ofInterval low high, unsignedMin := low, unsignedMax := high } :
      Bounds).synchronized

/-- What `size` bytes of memory can hold. -/
def ofWidth (size : Nat) : Bounds :=
  if 8 ≤ size then unknown else ofInterval 0 (Word.lowMask (size * 8))

/-- The words that agree with the known bits. -/
def ofBits (bits : KnownBits) : Bounds :=
  ({ unknown with bits := bits } : Bounds).synchronized

end Bounds

end PacketFilter
