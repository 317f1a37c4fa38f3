import PacketFilter.Proofs.Narrowing

/-!
# What synchronising leaves

Synchronised bounds hold the words that the bounds held before, neither fewer
nor more, however their intervals overlap the sign boundary or contradict one
another; and they are given up only where there was no word.  Bounds made of an
interval hold the words of that interval for the same reason.
-/

namespace PacketFilter.Bounds

variable {bounds narrowed rest : Bounds} {low high word : Word}

theorem mem_iff_of_synchronize
    (wellFormed : bounds.bits.WellFormed) (settled : bounds.synchronize = .ok narrowed) :
    word ∈ narrowed ↔ word ∈ bounds := by
  have settled? : bounds.synchronize? = some narrowed := by
    rw [synchronize?, settled]
    rfl
  constructor
  · exact fun member => synchronize?_subset wellFormed settled? member
  · intro member
    obtain ⟨narrowed', settled', kept⟩ := synchronize_mem member
    rw [settled] at settled'
    cases settled'
    exact kept

theorem not_mem_of_synchronize (failed : bounds.synchronize = .error rest) : word ∉ bounds := by
  intro member
  obtain ⟨narrowed, settled, _⟩ := synchronize_mem member
  rw [failed] at settled
  cases settled

/-- The words from one end to the other, before the views narrow one another. -/
def between (low high : Word) : Bounds :=
  { unknown with
    bits := KnownBits.ofInterval low high, unsignedMin := low, unsignedMax := high }

theorem ofInterval_eq (low high : Word) : ofInterval low high = (between low high).synchronized :=
  rfl

theorem mem_between : word ∈ between low high ↔ low ≤ word ∧ word ≤ high := by
  constructor
  · exact fun member => member.2.1
  · intro inside
    exact ⟨KnownBits.ofInterval_mem inside.1 inside.2, inside, (mem_unknown word).2.2⟩

theorem mem_ofInterval_iff (order : low ≤ high) :
    word ∈ ofInterval low high ↔ low ≤ word ∧ word ≤ high := by
  have start : low ∈ between low high := mem_between.mpr ⟨Nat.le_refl _, order⟩
  obtain ⟨narrowed, settled, _⟩ := synchronize_mem start
  have made : ofInterval low high = narrowed := by
    rw [ofInterval_eq, synchronized, synchronize?, settled]
    rfl
  rw [made, mem_iff_of_synchronize (KnownBits.ofInterval_wellFormed low high) settled, mem_between]

/-- Synchronising drops no word and admits none, and it gives up only bounds that hold no word;
bounds made of an interval hold exactly the words between its ends. -/
theorem synchronize_keeps_words (bounds : Bounds) (wellFormed : bounds.bits.WellFormed) :
    (match bounds.synchronize with
      | .ok narrowed => ∀ word, word ∈ narrowed ↔ word ∈ bounds
      | .error _ => ∀ word, word ∉ bounds) ∧
      ∀ low high : Word, low ≤ high →
        ∀ word, word ∈ ofInterval low high ↔ low ≤ word ∧ word ≤ high := by
  refine ⟨?_, fun low high order word => mem_ofInterval_iff order⟩
  cases settled : bounds.synchronize with
  | ok narrowed => exact fun word => mem_iff_of_synchronize wellFormed settled
  | error rest => exact fun word => not_mem_of_synchronize settled

/-- Even words whose two intervals both reach over the sign boundary, from different sides. -/
def crossing : Bounds where
  bits := ⟨0, ~~~1⟩
  unsignedMin := 3
  unsignedMax := 0x8000000000000001
  signedMin := Word.signedLeast
  signedMax := 4

/-- Of the words from 3 to 4 and the two above the sign boundary the even ones are left; when the
unsigned interval stays below that boundary and the signed one above it, nothing is. -/
theorem synchronize_keeps_words_crossing :
    crossing.bits.WellFormed ∧
      (∃ narrowed, crossing.synchronize = .ok narrowed ∧
        ∀ word, word ∈ narrowed ↔ word ∈ crossing) ∧
      (∀ word, word ∉ { crossing with unsignedMax := 5, signedMax := 0x8000000000000001 }) ∧
      (3 : Word) ≤ 3 ∧ ∀ word, word ∈ ofInterval 3 3 ↔ 3 ≤ word ∧ word ≤ 3 := by
  have wellFormed : crossing.bits.WellFormed := by decide
  have keeps := synchronize_keeps_words crossing wellFormed
  have clash := synchronize_keeps_words
    { crossing with unsignedMax := 5, signedMax := 0x8000000000000001 } wellFormed
  exact ⟨wellFormed, ⟨_, rfl, keeps.1⟩, clash.1, by decide, keeps.2 3 3 (by decide)⟩

end PacketFilter.Bounds
