import PacketFilter.Bounds.Basic
import PacketFilter.Comparison

/-!
# Trip counts

How often a counted loop can still go round, when only the bounds of its
counter and of its limit are known.  A count is given only where the counter
cannot wrap past the limit before the test sees it.
-/

namespace PacketFilter

/-- The number of steps of the given length that cover the distance. -/
def stepsToCover (distance : Int) (length : Nat) : Nat :=
  (distance.toNat + length - 1) / length

/--
An upper bound on how often `counter comparison limit` can hold while the
counter moves by `step` between tests; nothing when the bounds give none.
-/
def remainingTrips? (comparison : Comparison) (counter limit : Bounds) (step : Int) : Option Nat :=
  let length := step.natAbs
  let least : Int := counter.unsignedMin.toNat
  let greatest : Int := counter.unsignedMax.toNat
  let signedLeast := counter.signedMin.toInt
  let signedGreatest := counter.signedMax.toInt
  let limitLeast : Int := limit.unsignedMin.toNat
  let limitGreatest : Int := limit.unsignedMax.toNat
  let limitSignedLeast := limit.signedMin.toInt
  let limitSignedGreatest := limit.signedMax.toInt
  let ceiling : Int := 0xffffffffffffffff
  let signedCeiling : Int := 0x7fffffffffffffff
  let signedFloor : Int := -0x8000000000000000
  match comparison with
  | .below =>
    if 0 < step ∧ limitGreatest + length - 1 ≤ ceiling then
      some (stepsToCover (limitGreatest - least) length)
    else none
  | .atMost =>
    if 0 < step ∧ limitGreatest + length ≤ ceiling then
      some (stepsToCover (limitGreatest - least + 1) length)
    else none
  | .signedBelow =>
    if 0 < step ∧ limitSignedGreatest + length - 1 ≤ signedCeiling then
      some (stepsToCover (limitSignedGreatest - signedLeast) length)
    else none
  | .signedAtMost =>
    if 0 < step ∧ limitSignedGreatest + length ≤ signedCeiling then
      some (stepsToCover (limitSignedGreatest - signedLeast + 1) length)
    else none
  | .above =>
    if step < 0 ∧ length ≤ limitLeast + 1 then
      some (stepsToCover (greatest - limitLeast) length)
    else none
  | .atLeast =>
    if step < 0 ∧ length ≤ limitLeast then
      some (stepsToCover (greatest - limitLeast + 1) length)
    else none
  | .signedAbove =>
    if step < 0 ∧ signedFloor ≤ limitSignedLeast + 1 - length then
      some (stepsToCover (signedGreatest - limitSignedLeast) length)
    else none
  | .signedAtLeast =>
    if step < 0 ∧ signedFloor ≤ limitSignedLeast - length then
      some (stepsToCover (signedGreatest - limitSignedLeast + 1) length)
    else none
  | .differ =>
    if step = 1 ∧ greatest ≤ limitLeast then
      some (stepsToCover (limitGreatest - least) length)
    else if step = -1 ∧ limitGreatest ≤ least then
      some (stepsToCover (greatest - limitLeast) length)
    else none
  | .equal | .sharesBit | .sharesNone => none

end PacketFilter
