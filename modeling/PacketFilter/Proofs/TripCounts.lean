import PacketFilter.ControlFlow.TripCount
import PacketFilter.Proofs.Bounds

/-!
# Trip counts bound loops

A loop compares its counter with a limit, and as long as the comparison holds it
adds its step to the counter, modulo `2 ^ 64`.  Where `remainingTrips?` gives
a number, the loop is left after no more passing tests than that, whatever
members of the bounds the counter and the limit are.

Signed and unsigned comparisons are told apart by nothing but the numbers that
the words are read as.  In either reading a counter that rises towards
a number, or falls towards one, comes nearer with every passing test, for the
test is seen to fail before the counter could leave the range of the reading.
-/

namespace PacketFilter

/-- The loop that goes round while `counter comparison limit` holds, and then adds the step to the
counter, is left after so many passing tests. -/
inductive Comparison.LoopLeaves (comparison : Comparison) (limit : Word) (step : Int) :
    Word → Nat → Prop
  | leaves {counter : Word} (fails : comparison.holds counter limit = false) :
      LoopLeaves comparison limit step counter 0
  | goesRound {counter : Word} {passes : Nat} (holds : comparison.holds counter limit = true)
      (onward : LoopLeaves comparison limit step (counter + BitVec.ofInt 64 step) passes) :
      LoopLeaves comparison limit step counter (passes + 1)

/-! ## Steps that cover a distance -/

theorem stepsToCover_succ {distance : Int} {length : Nat} (far : 0 < distance)
    (moves : 0 < length) :
    stepsToCover distance length = stepsToCover (distance - length) length + 1 := by
  unfold stepsToCover
  rw [← Nat.add_div_right _ moves]
  by_cases short : distance < length
  · have covered : (distance - length).toNat = 0 := by omega
    rw [covered, Nat.div_eq_of_lt_le (k := 1) (by omega) (by omega),
      Nat.div_eq_of_lt_le (k := 1) (by omega) (by omega)]
  · congr 1
    omega

namespace Comparison

variable {comparison : Comparison} {limit counter : Word} {step : Int}

/-- A loop that comes nearer by a fixed length with every passing test is left once the distance is
covered. -/
theorem loopLeaves_of_nearer
    (distance : Word → Int) (Within : Word → Prop) {length : Nat} (moves : 0 < length)
    (nearer : ∀ counter, Within counter → comparison.holds counter limit = true →
      0 < distance counter ∧
        distance (counter + BitVec.ofInt 64 step) = distance counter - length ∧
          Within (counter + BitVec.ofInt 64 step))
    {bound : Int} (starts : Within counter) (near : distance counter ≤ bound) :
    ∃ passes ≤ stepsToCover bound length, comparison.LoopLeaves limit step counter passes := by
  induction steps : stepsToCover bound length generalizing counter bound with
  | zero =>
      refine ⟨0, Nat.le_refl 0, .leaves ?_⟩
      rw [Bool.eq_false_iff]
      intro holds
      have far := (nearer counter starts holds).1
      rw [stepsToCover_succ (by omega) moves] at steps
      cases steps
  | succ trips continues =>
      cases tested : comparison.holds counter limit with
      | false => exact ⟨0, Nat.zero_le _, .leaves tested⟩
      | true =>
          rcases nearer counter starts tested with ⟨far, covered, within⟩
          rw [stepsToCover_succ (by omega) moves, Nat.add_right_cancel_iff] at steps
          rcases continues within (by omega) steps with ⟨passes, few, leaves⟩
          exact ⟨passes + 1, Nat.succ_le_succ few, .goesRound tested leaves⟩

end Comparison

/-! ## Readings -/

/-- A way to read words as numbers in which a step that stays in the range is an addition. -/
structure Word.Reading where
  value : Word → Int
  floor : Int
  ceiling : Int
  inside : ∀ word, floor ≤ value word ∧ value word ≤ ceiling
  value_step : ∀ word step, floor ≤ value word + step → value word + step ≤ ceiling →
    value (word + BitVec.ofInt 64 step) = value word + step

namespace Word.Reading

/-- Words as numbers from zero on. -/
def unsigned : Reading where
  value word := word.toNat
  floor := 0
  ceiling := 0xffffffffffffffff
  inside word := by
    have short := word.isLt
    omega
  value_step word step above below := by
    rw [BitVec.toNat_add, BitVec.toNat_ofInt]
    omega

/-- Words as numbers of either sign. -/
def signed : Reading where
  value word := word.toInt
  floor := -0x8000000000000000
  ceiling := 0x7fffffffffffffff
  inside word := by
    have short := word.toInt_cases
    omega
  value_step word step above below := by
    rw [BitVec.toInt_add, BitVec.toInt_ofInt, Int.add_bmod_bmod, Int.bmod_eq_of_le]
    · omega
    · omega

variable (reading : Word.Reading) {comparison : Comparison} {limit counter : Word}
variable {step goal bound : Int}

/-- A counter that rises as long as it is below a number. -/
theorem loopLeaves_rising
    (tests : ∀ word, comparison.holds word limit = true ↔ reading.value word < goal)
    (rises : 0 < step) (room : goal + step.natAbs - 1 ≤ reading.ceiling)
    (near : goal - reading.value counter ≤ bound) :
    ∃ passes ≤ stepsToCover bound step.natAbs,
      comparison.LoopLeaves limit step counter passes := by
  have length : (step.natAbs : Int) = step := Int.natAbs_of_nonneg (Int.le_of_lt rises)
  refine Comparison.loopLeaves_of_nearer (fun word => goal - reading.value word) (fun _ => True)
    (by omega) (fun word _ holds => ?_) trivial near
  have below := (tests word).mp holds
  have inside := reading.inside word
  have moved := reading.value_step word step (by omega) (by omega)
  exact ⟨by omega, by omega, trivial⟩

/-- A counter that falls as long as it is above a number. -/
theorem loopLeaves_falling
    (tests : ∀ word, comparison.holds word limit = true ↔ goal < reading.value word)
    (falls : step < 0) (room : reading.floor ≤ goal + 1 - step.natAbs)
    (near : reading.value counter - goal ≤ bound) :
    ∃ passes ≤ stepsToCover bound step.natAbs,
      comparison.LoopLeaves limit step counter passes := by
  have length : (step.natAbs : Int) = -step := Int.ofNat_natAbs_of_nonpos (Int.le_of_lt falls)
  refine Comparison.loopLeaves_of_nearer (fun word => reading.value word - goal) (fun _ => True)
    (by omega) (fun word _ holds => ?_) trivial near
  have above := (tests word).mp holds
  have inside := reading.inside word
  have moved := reading.value_step word step (by omega) (by omega)
  exact ⟨by omega, by omega, trivial⟩

end Word.Reading

namespace Comparison

variable {limit counter : Word} {bound : Int}

/-- A counter that rises by one to a limit at or above it. -/
theorem differ_loopLeaves_rising
    (below : counter.toNat ≤ limit.toNat) (near : (limit.toNat : Int) - counter.toNat ≤ bound) :
    ∃ passes ≤ stepsToCover bound 1, differ.LoopLeaves limit 1 counter passes := by
  refine loopLeaves_of_nearer (fun word => limit.toNat - word.toNat)
    (fun word => word.toNat ≤ limit.toNat) Nat.one_pos
    (fun word below holds => ?_) below near
  have apart : word.toNat ≠ limit.toNat := fun same =>
    (bne_iff_ne.mp holds) (BitVec.eq_of_toNat_eq same)
  have moved := Word.Reading.unsigned.value_step word 1
  have short := limit.isLt
  simp only [Word.Reading.unsigned] at moved
  omega

/-- A counter that falls by one to a limit at or below it. -/
theorem differ_loopLeaves_falling
    (above : limit.toNat ≤ counter.toNat) (near : (counter.toNat : Int) - limit.toNat ≤ bound) :
    ∃ passes ≤ stepsToCover bound 1, differ.LoopLeaves limit (-1) counter passes := by
  refine loopLeaves_of_nearer (fun word => word.toNat - limit.toNat)
    (fun word => limit.toNat ≤ word.toNat) Nat.one_pos
    (fun word above holds => ?_) above near
  have apart : word.toNat ≠ limit.toNat := fun same =>
    (bne_iff_ne.mp holds) (BitVec.eq_of_toNat_eq same)
  have moved := Word.Reading.unsigned.value_step word (-1)
  have short := word.isLt
  simp only [Word.Reading.unsigned] at moved
  omega

end Comparison

/-! ## Tests as comparisons of numbers -/

namespace Comparison

variable (word limit : Word)

theorem below_holds_iff : below.holds word limit = true ↔ (word.toNat : Int) < limit.toNat := by
  simp only [holds, BitVec.ult_iff_lt, BitVec.lt_def]
  omega

theorem atMost_holds_iff : atMost.holds word limit = true ↔
    (word.toNat : Int) < limit.toNat + 1 := by
  simp only [holds, BitVec.ule_iff_le, BitVec.le_def]
  omega

theorem above_holds_iff : above.holds word limit = true ↔ (limit.toNat : Int) < word.toNat := by
  simp only [holds, BitVec.ult_iff_lt, BitVec.lt_def]
  omega

theorem atLeast_holds_iff : atLeast.holds word limit = true ↔
    (limit.toNat : Int) - 1 < word.toNat := by
  simp only [holds, BitVec.ule_iff_le, BitVec.le_def]
  omega

theorem signedBelow_holds_iff : signedBelow.holds word limit = true ↔ word.toInt < limit.toInt := by
  simp only [holds, BitVec.slt_iff_toInt_lt]

theorem signedAtMost_holds_iff : signedAtMost.holds word limit = true ↔
    word.toInt < limit.toInt + 1 := by
  simp only [holds, BitVec.sle_iff_toInt_le]
  omega

theorem signedAbove_holds_iff : signedAbove.holds word limit = true ↔ limit.toInt < word.toInt := by
  simp only [holds, BitVec.slt_iff_toInt_lt]

theorem signedAtLeast_holds_iff : signedAtLeast.holds word limit = true ↔
    limit.toInt - 1 < word.toInt := by
  simp only [holds, BitVec.sle_iff_toInt_le]
  omega

end Comparison

/-! ## The bound -/

/-- Whatever members of the bounds a counter and a limit are, the loop that goes round while the
comparison holds and adds the step to the counter modulo `2 ^ 64` is left after no more passing
tests than `remainingTrips?` gives, if it gives a number.  Bounds that have members are sane. -/
theorem remainingTrips?_bounds_loop
    {comparison : Comparison} {counterBounds limitBounds : Bounds} {step : Int} {trips : Nat}
    (given : remainingTrips? comparison counterBounds limitBounds step = some trips)
    {counter limit : Word} (starts : counter ∈ counterBounds) (member : limit ∈ limitBounds) :
    ∃ passes ≤ trips, comparison.LoopLeaves limit step counter passes := by
  rcases Bounds.mem_iff.mp starts with ⟨_, ⟨least, greatest⟩, signedLeast, signedGreatest⟩
  rcases Bounds.mem_iff.mp member with
    ⟨_, ⟨limitLeast, limitGreatest⟩, limitSignedLeast, limitSignedGreatest⟩
  unfold remainingTrips? at given
  cases comparison with
  | below =>
      rcases Option.ite_none_right_eq_some.mp given with ⟨⟨rises, room⟩, same⟩
      cases same
      exact Word.Reading.unsigned.loopLeaves_rising
        (fun word => Comparison.below_holds_iff word limit) rises
        (show (limit.toNat : Int) + step.natAbs - 1 ≤ 0xffffffffffffffff by omega)
        (show (limit.toNat : Int) - counter.toNat ≤ _ by omega)
  | atMost =>
      rcases Option.ite_none_right_eq_some.mp given with ⟨⟨rises, room⟩, same⟩
      cases same
      exact Word.Reading.unsigned.loopLeaves_rising
        (fun word => Comparison.atMost_holds_iff word limit) rises
        (show (limit.toNat : Int) + 1 + step.natAbs - 1 ≤ 0xffffffffffffffff by omega)
        (show (limit.toNat : Int) + 1 - counter.toNat ≤ _ by omega)
  | signedBelow =>
      rcases Option.ite_none_right_eq_some.mp given with ⟨⟨rises, room⟩, same⟩
      cases same
      exact Word.Reading.signed.loopLeaves_rising
        (fun word => Comparison.signedBelow_holds_iff word limit) rises
        (show limit.toInt + step.natAbs - 1 ≤ 0x7fffffffffffffff by omega)
        (show limit.toInt - counter.toInt ≤ _ by omega)
  | signedAtMost =>
      rcases Option.ite_none_right_eq_some.mp given with ⟨⟨rises, room⟩, same⟩
      cases same
      exact Word.Reading.signed.loopLeaves_rising
        (fun word => Comparison.signedAtMost_holds_iff word limit) rises
        (show limit.toInt + 1 + step.natAbs - 1 ≤ 0x7fffffffffffffff by omega)
        (show limit.toInt + 1 - counter.toInt ≤ _ by omega)
  | above =>
      rcases Option.ite_none_right_eq_some.mp given with ⟨⟨falls, room⟩, same⟩
      cases same
      exact Word.Reading.unsigned.loopLeaves_falling
        (fun word => Comparison.above_holds_iff word limit) falls
        (show 0 ≤ (limit.toNat : Int) + 1 - step.natAbs by omega)
        (show (counter.toNat : Int) - limit.toNat ≤ _ by omega)
  | atLeast =>
      rcases Option.ite_none_right_eq_some.mp given with ⟨⟨falls, room⟩, same⟩
      cases same
      exact Word.Reading.unsigned.loopLeaves_falling
        (fun word => Comparison.atLeast_holds_iff word limit) falls
        (show 0 ≤ (limit.toNat : Int) - 1 + 1 - step.natAbs by omega)
        (show (counter.toNat : Int) - (limit.toNat - 1) ≤ _ by omega)
  | signedAbove =>
      rcases Option.ite_none_right_eq_some.mp given with ⟨⟨falls, room⟩, same⟩
      cases same
      exact Word.Reading.signed.loopLeaves_falling
        (fun word => Comparison.signedAbove_holds_iff word limit) falls
        (show -0x8000000000000000 ≤ limit.toInt + 1 - step.natAbs by omega)
        (show counter.toInt - limit.toInt ≤ _ by omega)
  | signedAtLeast =>
      rcases Option.ite_none_right_eq_some.mp given with ⟨⟨falls, room⟩, same⟩
      cases same
      exact Word.Reading.signed.loopLeaves_falling
        (fun word => Comparison.signedAtLeast_holds_iff word limit) falls
        (show -0x8000000000000000 ≤ limit.toInt - 1 + 1 - step.natAbs by omega)
        (show counter.toInt - (limit.toInt - 1) ≤ _ by omega)
  | differ =>
      dsimp only at given
      split at given
      case isTrue rising =>
        rcases rising with ⟨rfl, room⟩
        cases given
        exact Comparison.differ_loopLeaves_rising (by omega) (by omega)
      case isFalse =>
        rcases Option.ite_none_right_eq_some.mp given with ⟨⟨rfl, room⟩, same⟩
        cases same
        exact Comparison.differ_loopLeaves_falling (by omega) (by omega)
  | equal => cases given
  | sharesBit => cases given
  | sharesNone => cases given

/-- Steps of two down to 1 from at most 9: from 8 on all four tests that may pass do, and the last
step ends at 0, as low as the counter can go without wrapping. -/
theorem remainingTrips?_bounds_loop_falling :
    remainingTrips? .above (Bounds.unknown.withUnsigned 5 9) (.constant 1) (-2) = some 4 ∧
      ∃ passes ≤ 4, Comparison.above.LoopLeaves 1 (-2) 8 passes := by
  have given : remainingTrips? .above (Bounds.unknown.withUnsigned 5 9) (.constant 1) (-2) =
      some 4 := by decide
  exact ⟨given, remainingTrips?_bounds_loop given (by decide) (Bounds.mem_constant.mpr rfl)⟩

end PacketFilter
