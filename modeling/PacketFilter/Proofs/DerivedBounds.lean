import PacketFilter.Proofs.Guarded

/-!
# Bounds that operations lead to

`Derived` bounds are those that come from `unknown`, constants, intervals and
widths by any number of operations and refinements.  Every operation ends in a
synchronisation, in a constant or in one of its operands, so their intervals
are in order and their ends settled.

These two facts are what the guarded operations ask for.  No arithmetic on
derived bounds therefore leaves its range or divides by zero.
-/

namespace PacketFilter.Bounds

variable {bounds left right narrowed : Bounds} {both : Bounds × Bounds}

/-- Bounds obtained from given ones by operations and refinements. -/
inductive Derived : Bounds → Prop
  | unknown : Derived unknown
  | constant (word : Word) : Derived (constant word)
  | ofInterval {low high : Word} (order : low ≤ high) : Derived (ofInterval low high)
  | ofWidth (size : Nat) : Derived (ofWidth size)
  | applyCode {left right : Bounds} (code : UInt8) (fromLeft : Derived left)
      (fromRight : Derived right) : Derived (applyCode code left right)
  | apply32Code {left right : Bounds} (code : UInt8) (fromLeft : Derived left)
      (fromRight : Derived right) : Derived (apply32Code code left right)
  | neg {bounds : Bounds} (source : Derived bounds) : Derived bounds.neg
  | truncate32 {bounds : Bounds} (source : Derived bounds) : Derived bounds.truncate32
  | convertOrder {bounds : Bounds} (order : ByteOrder) {width : Nat}
      (listed : width ∈ [16, 32, 64]) (source : Derived bounds) :
      Derived (bounds.convertOrder order width)
  | refinedLeft {left right : Bounds} {both : Bounds × Bounds} (comparison : Comparison)
      (fromLeft : Derived left) (fromRight : Derived right)
      (refined : refine? comparison left right = some (some both)) : Derived both.1
  | refinedRight {left right : Bounds} {both : Bounds × Bounds} (comparison : Comparison)
      (fromLeft : Derived left) (fromRight : Derived right)
      (refined : refine? comparison left right = some (some both)) : Derived both.2

/-- The intervals are in order and have no end left to move. -/
structure Settled (bounds : Bounds) : Prop where
  sane : bounds.Sane
  ends : bounds.EndsSettled

/-! ## Each operation settles its bounds -/

theorem unknown_settled : unknown.Settled where
  sane := by decide
  ends := by constructor <;> decide

theorem constant_settled (word : Word) : (constant word).Settled where
  sane := Guarded.constant_sane word
  ends := constant_endsSettled word

theorem synchronize?_settled (synchronized : bounds.synchronize? = some narrowed) :
    narrowed.Settled where
  sane := (synchronize?_eq_some synchronized).2.2.1
  ends := synchronize?_endsSettled synchronized

theorem synchronized_settled (bounds : Bounds) : bounds.synchronized.Settled := by
  rw [synchronized]
  cases result : bounds.synchronize? with
  | none => exact unknown_settled
  | some narrowed => exact synchronize?_settled result

theorem ofInterval_settled (low high : Word) : (ofInterval low high).Settled :=
  synchronized_settled _

theorem ofBits_settled (bits : KnownBits) : (ofBits bits).Settled :=
  synchronized_settled _

theorem ofWidth_settled (size : Nat) : (ofWidth size).Settled := by
  unfold ofWidth
  split
  case isTrue => exact unknown_settled
  case isFalse => exact ofInterval_settled _ _

theorem mul_settled (left right : Bounds) : (left.mul right).Settled := by
  unfold mul
  dsimp only
  split
  case isTrue => exact synchronized_settled _
  case isFalse => exact ofBits_settled _

theorem div_settled (left right : Bounds) : (left.div right).Settled := by
  unfold div
  split_ifs
  · exact constant_settled 0
  · exact ofInterval_settled _ _
  · exact ofInterval_settled _ _

theorem mod_settled (settled : left.Settled) (right : Bounds) : (left.mod right).Settled := by
  unfold mod
  split_ifs
  · exact settled
  · exact settled
  · exact ofInterval_settled _ _
  · exact ofInterval_settled _ _

theorem shiftLeft_settled (left count : Bounds) : (left.shiftLeft count).Settled := by
  unfold shiftLeft
  dsimp only
  split_ifs
  · exact unknown_settled
  · exact synchronized_settled _
  · exact ofBits_settled _

theorem shiftRight_settled (left count : Bounds) : (left.shiftRight count).Settled := by
  unfold shiftRight
  split
  case isTrue => exact unknown_settled
  case isFalse => exact synchronized_settled _

theorem signedShiftRight_settled (left count : Bounds) :
    (left.signedShiftRight count).Settled := by
  unfold signedShiftRight
  cases count.constant? with
  | none => exact unknown_settled
  | some shift =>
      dsimp only
      split
      case isTrue => exact synchronized_settled _
      case isFalse => exact unknown_settled

theorem apply_settled
    (operation : Arithmetic) (fromLeft : left.Settled) (fromRight : right.Settled) :
    (apply operation left right).Settled := by
  cases operation with
  | add | sub | or | and | neg => exact synchronized_settled _
  | mul => exact mul_settled left right
  | div => exact div_settled left right
  | shiftLeft => exact shiftLeft_settled left right
  | shiftRight => exact shiftRight_settled left right
  | mod => exact mod_settled fromLeft right
  | xor => exact ofBits_settled _
  | move => exact fromRight
  | signedShiftRight => exact signedShiftRight_settled left right

theorem applyCode_settled
    (code : UInt8) (fromLeft : left.Settled) (fromRight : right.Settled) :
    (applyCode code left right).Settled := by
  unfold applyCode
  cases Arithmetic.ofCode? code with
  | none => exact unknown_settled
  | some operation => exact apply_settled operation fromLeft fromRight

theorem truncate32_settled (settled : bounds.Settled) : bounds.truncate32.Settled := by
  unfold truncate32
  cases bounds.constant? with
  | some word => exact constant_settled _
  | none =>
      dsimp only
      split
      case isTrue => exact settled
      case isFalse => exact synchronized_settled _

theorem apply32_settled
    (operation : Arithmetic) (fromLeft : left.Settled) (fromRight : right.Settled) :
    (apply32 operation left right).Settled := by
  have whole := truncate32_settled
    (apply_settled operation (truncate32_settled fromLeft) (truncate32_settled fromRight))
  cases operation with
  | shiftLeft | shiftRight =>
      unfold apply32
      dsimp only
      split
      case isTrue => exact ofWidth_settled 4
      case isFalse => exact whole
  | signedShiftRight =>
      unfold apply32
      dsimp only
      split
      case isTrue => exact ofWidth_settled 4
      case isFalse => exact truncate32_settled (shiftRight_settled _ _)
  | _ => exact whole

theorem apply32Code_settled
    (code : UInt8) (fromLeft : left.Settled) (fromRight : right.Settled) :
    (apply32Code code left right).Settled := by
  unfold apply32Code
  cases Arithmetic.ofCode? code with
  | none => exact truncate32_settled unknown_settled
  | some operation => exact apply32_settled operation fromLeft fromRight

theorem convertOrder_settled (settled : bounds.Settled) (order : ByteOrder) (width : Nat) :
    (bounds.convertOrder order width).Settled := by
  cases order with
  | big =>
      unfold convertOrder
      cases bounds.constant? with
      | some word => exact constant_settled _
      | none => exact ofWidth_settled _
  | little =>
      unfold convertOrder
      dsimp only
      split_ifs
      · exact settled
      · exact settled
      · exact ofBits_settled _

/-- Both bounds are settled, where a refinement leaves any. -/
def Settles (narrowed : Option (Bounds × Bounds)) : Prop :=
  ∀ both, narrowed = some both → both.1.Settled ∧ both.2.Settled

theorem Settles.bind
    {α : Type} {value? : Option α} {next : α → Option (Bounds × Bounds)}
    (later : ∀ value, Settles (next value)) :
    Settles (value?.bind next) := by
  intro both made
  obtain ⟨value, _, made⟩ := Option.bind_eq_some_iff.mp made
  exact later value both made

theorem Settles.swap
    {narrowed : Option (Bounds × Bounds)} (settles : Settles narrowed) :
    Settles (narrowed.map Prod.swap) := by
  intro both made
  obtain ⟨swapped, held, rfl⟩ := Option.map_eq_some_iff.mp made
  exact (settles swapped held).symm

theorem synchronizeBoth?_settles (left right : Bounds) : Settles (synchronizeBoth? left right) := by
  intro both synchronized
  simp only [synchronizeBoth?, Option.bind_eq_bind, Option.bind_eq_some_iff] at synchronized
  obtain ⟨first, fromLeft, second, fromRight, made⟩ := synchronized
  cases made
  exact ⟨synchronize?_settled fromLeft, synchronize?_settled fromRight⟩

theorem meet?_settles (left right : Bounds) :
    Settles ((left.meet? right).map fun common => (common, common)) := by
  intro both made
  obtain ⟨common, met, rfl⟩ := Option.map_eq_some_iff.mp made
  obtain ⟨_, _, synchronized⟩ := Option.bind_eq_some_iff.mp met
  exact ⟨synchronize?_settled synchronized, synchronize?_settled synchronized⟩

theorem refineDiffer?_settles
    {narrowed? : Option (Bounds × Bounds)}
    (refined : left.refineDiffer? right = some narrowed?) :
    Settles narrowed? := by
  rintro both rfl
  obtain ⟨_, _, _, _, synchronized⟩ := refineDiffer?_eq_some refined
  exact synchronizeBoth?_settles _ _ both synchronized

theorem refineAbove?_settles (left right : Bounds) : Settles (left.refineAbove? right) :=
  .bind fun _ => .bind fun _ => synchronizeBoth?_settles _ _

theorem refineSignedAbove?_settles (left right : Bounds) :
    Settles (left.refineSignedAbove? right) :=
  .bind fun _ => .bind fun _ => synchronizeBoth?_settles _ _

theorem refineSharesBit?_settles (left right : Bounds) : Settles (left.refineSharesBit? right) := by
  unfold refineSharesBit?
  cases right.constant? with
  | none => exact synchronizeBoth?_settles left right
  | some word =>
      dsimp only
      split
      case isTrue => exact .bind fun _ => synchronizeBoth?_settles _ _
      case isFalse => exact synchronizeBoth?_settles left right

theorem refineSharesNone?_settles (left right : Bounds) :
    Settles (left.refineSharesNone? right) := by
  unfold refineSharesNone?
  cases right.constant? with
  | none => exact synchronizeBoth?_settles left right
  | some word => exact .bind fun _ => synchronizeBoth?_settles _ _

theorem refine?_settles
    {comparison : Comparison} {narrowed? : Option (Bounds × Bounds)}
    (refined : refine? comparison left right = some narrowed?) :
    Settles narrowed? := by
  cases comparison with
  | differ => exact refineDiffer?_settles refined
  | equal =>
      cases refined
      exact meet?_settles left right
  | above =>
      cases refined
      exact refineAbove?_settles left right
  | atLeast | signedAtLeast =>
      cases refined
      exact synchronizeBoth?_settles _ _
  | below =>
      cases refined
      exact (refineAbove?_settles right left).swap
  | signedBelow =>
      cases refined
      exact (refineSignedAbove?_settles right left).swap
  | atMost | signedAtMost =>
      cases refined
      exact (synchronizeBoth?_settles _ _).swap
  | signedAbove =>
      cases refined
      exact refineSignedAbove?_settles left right
  | sharesBit =>
      cases refined
      exact refineSharesBit?_settles left right
  | sharesNone =>
      cases refined
      exact refineSharesNone?_settles left right

/-! ## Derived bounds -/

theorem Derived.settled (derived : Derived bounds) : bounds.Settled := by
  induction derived with
  | unknown => exact unknown_settled
  | constant word => exact constant_settled word
  | ofInterval => exact ofInterval_settled _ _
  | ofWidth size => exact ofWidth_settled size
  | applyCode code _ _ fromLeft fromRight => exact applyCode_settled code fromLeft fromRight
  | apply32Code code _ _ fromLeft fromRight => exact apply32Code_settled code fromLeft fromRight
  | neg => exact synchronized_settled _
  | truncate32 _ settled => exact truncate32_settled settled
  | convertOrder order _ _ settled => exact convertOrder_settled settled order _
  | refinedLeft comparison _ _ refined => exact (refine?_settles refined _ rfl).1
  | refinedRight comparison _ _ refined => exact (refine?_settles refined _ rfl).2

/-- On derived bounds every guarded operation gives what the unguarded one does, and no refinement
overflows. -/
theorem derived_operations_guarded (fromLeft : Derived left) (fromRight : Derived right) :
    (∀ code, Guarded.applyCode code left right = some (applyCode code left right)) ∧
      (∀ code, Guarded.apply32Code code left right = some (apply32Code code left right)) ∧
      Guarded.neg left = some left.neg ∧
      Guarded.truncate32 left = some left.truncate32 ∧
      (∀ order, ∀ width ∈ [16, 32, 64],
        Guarded.convertOrder left order width = some (left.convertOrder order width)) ∧
      (∀ comparison, ∃ narrowed?, refine? comparison left right = some narrowed? ∧
        Guarded.refine? comparison left right = some narrowed?) ∧
      (∀ low high, low ≤ high → Guarded.ofInterval low high = some (ofInterval low high)) ∧
      ∀ size, Guarded.ofWidth size = some (ofWidth size) := by
  have ofLeft := fromLeft.settled
  have ofRight := fromRight.settled
  refine ⟨fun code => ?_, fun code => ?_, ?_, ?_, fun order width _ => ?_, fun comparison => ?_,
    fun low high _ => ?_, fun size => ?_⟩
  · exact Guarded.applyCode_eq code ofLeft.sane ofRight.sane
  · exact Guarded.apply32Code_eq code (truncate32_settled ofLeft).sane
      (truncate32_settled ofRight).sane
  · exact Guarded.neg_eq ofLeft.sane
  · exact Guarded.truncate32_eq left
  · exact Guarded.convertOrder_eq left order width
  · obtain ⟨narrowed?, refined⟩ :=
      refine?_of_endsSettled comparison fun _ => ⟨ofLeft.ends, ofRight.ends⟩
    exact ⟨narrowed?, refined, (Guarded.refine?_eq comparison left right).trans refined⟩
  · exact Guarded.ofInterval_eq low high
  · exact Guarded.ofWidth_eq size

/-- The two greatest words, and the greatest alone: excluding it moves the ends of the others
without leaving the range, and the remainders by it end one below it. -/
theorem derived_operations_guarded_at_top :
    Derived (ofInterval (Word.allOnes - 1) Word.allOnes) ∧ Derived (constant Word.allOnes) ∧
      Guarded.refine? .differ (ofInterval (Word.allOnes - 1) Word.allOnes)
          (constant Word.allOnes) =
        some (some (constant (Word.allOnes - 1), constant Word.allOnes)) ∧
      Guarded.applyCode 0x90 (ofInterval (Word.allOnes - 1) Word.allOnes)
          (constant Word.allOnes) =
        some (ofInterval 0 (Word.allOnes - 1)) := by
  have interval : Derived (ofInterval (Word.allOnes - 1) Word.allOnes) := .ofInterval (by decide)
  have known : Derived (constant Word.allOnes) := .constant _
  have guarded := derived_operations_guarded interval known
  obtain ⟨narrowed?, refined, same⟩ := guarded.2.2.2.2.2.1 .differ
  exact ⟨interval, known, same.trans (refined.symm.trans (by decide +kernel)),
    (guarded.1 0x90).trans (by decide +kernel)⟩

end PacketFilter.Bounds
