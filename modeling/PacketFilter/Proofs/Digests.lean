import Mathlib.Logic.ExistsUnique
import Mathlib.Tactic.ByContra
import PacketFilter.LoadBalancer.Basic

/-!
# What digests tell apart

Every step by which a digest is made can be undone.  Exclusive or with a
shifted copy is undone bit by bit from the top, and multiplication by an odd
number by the inverse of that number modulo `2 ^ 32`.  So the accumulator before
a fold can be told from the accumulator after it, once the bytes are known, and
the accumulator from the digest.

The main statement draws the two conclusions that tables and balancers rely on:
different seeds never give a byte string the same digest, and byte strings of
one length that differ in a single byte never have the same digest.
-/

namespace PacketFilter

namespace Digest

/-! ## Steps that can be undone -/

/-- A word is told from its exclusive or with itself shifted down.  The distance must not be zero,
as the word would then be cancelled. -/
theorem bits_shifted_injective
    {width distance : Nat}
    (positive : 0 < distance) :
    Function.Injective fun word : BitVec width => word ^^^ (word >>> distance) := by
  intro first second same
  -- A bit of the result is that of the word and one further up, which is known already when the
  -- bits are found from the top; the induction is on how far from the top a bit is.
  have bits (depth : Nat) :
      ∀ index, width ≤ index + depth → first.getLsbD index = second.getLsbD index := by
    induction depth with
    | zero =>
        intro index outside
        rw [BitVec.getLsbD_of_ge first index outside, BitVec.getLsbD_of_ge second index outside]
    | succ depth continues =>
        intro index inside
        have higher := continues (distance + index) (by omega)
        have mixed := congrArg (fun word => word.getLsbD index) same
        simp only [BitVec.getLsbD_xor, BitVec.getLsbD_ushiftRight, higher] at mixed
        exact Bool.xor_left_inj.mp mixed
  exact BitVec.eq_of_getLsbD_eq fun index _ => bits width index (Nat.le_add_left _ _)

/-- Mixing a word with itself moved right can be undone, from the top bits downwards. -/
theorem shifted_injective
    {distance : UInt32}
    (positive : 0 < distance.toNat % 32) :
    Function.Injective fun word : UInt32 => word ^^^ (word >>> distance) := by
  intro first second same
  have bits := congrArg UInt32.toBitVec same
  simp only [UInt32.toBitVec_xor, UInt32.toBitVec_shiftRight] at bits
  exact UInt32.toBitVec_inj.mp (bits_shifted_injective positive bits)

/-- Multiplying by a factor with an inverse can be undone. -/
theorem mul_injective
    {factor : UInt32} (inverse : UInt32)
    (inverts : factor * inverse = 1) :
    Function.Injective fun word : UInt32 => word * factor := by
  intro first second same
  have undone : first * factor * inverse = second * factor * inverse :=
    congrArg (· * inverse) same
  simpa only [UInt32.mul_assoc, inverts, UInt32.mul_one] using undone

/-- Each step of the final mixing can be undone. -/
theorem scramble_injective : Function.Injective scramble := by
  have outer : Function.Injective fun word : UInt32 => word ^^^ (word >>> 16) :=
    shifted_injective (by decide)
  have inner : Function.Injective fun word : UInt32 => word ^^^ (word >>> 13) :=
    shifted_injective (by decide)
  have first : Function.Injective fun word : UInt32 => word * 0x85ebca6b :=
    mul_injective 0xa5cb9243 (by decide)
  have second : Function.Injective fun word : UInt32 => word * 0xc2b2ae35 :=
    mul_injective 0x7ed1b41d (by decide)
  exact outer.comp (second.comp (inner.comp (first.comp outer)))

/-! ## Folding bytes -/

theorem mul_prime_injective : Function.Injective fun word : UInt32 => word * 0x01000193 :=
  mul_injective 0x359c449b (by decide)

/-- The accumulator before a byte is told from the one after it. -/
theorem absorb_injective (byte : UInt8) :
    Function.Injective fun accumulator => absorb accumulator byte := by
  intro first second same
  exact (UInt32.xor_left_inj _).mp (mul_prime_injective same)

/-- A byte is told from what the accumulator becomes. -/
theorem absorb_byte_injective (accumulator : UInt32) :
    Function.Injective (absorb accumulator) := by
  intro first second same
  exact UInt8.toUInt32_inj.mp ((UInt32.xor_right_inj _).mp (mul_prime_injective same))

/-- The accumulator before some bytes is told from the one after them. -/
theorem foldl_absorb_injective (data : List UInt8) :
    Function.Injective fun accumulator => data.foldl absorb accumulator := by
  induction data with
  | nil => exact Function.injective_id
  | cons byte rest continues => exact continues.comp (absorb_injective byte)

/-- A digest without a seed is one under the seed zero. -/
theorem ofSeededBytes_zero (data : List UInt8) : ofSeededBytes 0 data = ofBytes data :=
  rfl

/-- Different seeds give different digests of the same data. -/
theorem ofSeededBytes_injective (data : List UInt8) :
    Function.Injective fun seed => ofSeededBytes seed data := by
  intro first second same
  have started := foldl_absorb_injective data (scramble_injective same)
  exact scramble_injective ((UInt32.xor_right_inj _).mp started)

/-! ## Strings that differ in one byte -/

/-- Two byte strings of one length have different bytes at exactly one place. -/
structure DifferOnce (first second : List UInt8) : Prop where
  length : first.length = second.length
  once : ∃! index : Nat, first[index]? ≠ second[index]?

/-- What is before and after that place is the same in both strings. -/
theorem DifferOnce.exists_split
    {first second : List UInt8}
    (differ : DifferOnce first second) :
    ∃ before byte byte' after, byte ≠ byte' ∧
      first = before ++ byte :: after ∧ second = before ++ byte' :: after := by
  obtain ⟨index, there, only⟩ := differ.once
  have same (other : Nat) (elsewhere : other ≠ index) : first[other]? = second[other]? :=
    not_not.mp fun differs => elsewhere (only other differs)
  have inside : index < first.length := by
    by_contra outside
    have beyond : first.length ≤ index := Nat.not_lt.mp outside
    exact there (by rw [List.getElem?_eq_none beyond,
      List.getElem?_eq_none (differ.length ▸ beyond)])
  have inside' : index < second.length := differ.length ▸ inside
  have before : first.take index = second.take index := by
    apply List.ext_getElem?
    intro other
    rw [List.getElem?_take, List.getElem?_take]
    split
    case isTrue earlier => exact same other (Nat.ne_of_lt earlier)
    case isFalse => rfl
  have after : first.drop (index + 1) = second.drop (index + 1) := by
    apply List.ext_getElem?
    intro other
    rw [List.getElem?_drop, List.getElem?_drop]
    exact same _ (by omega)
  refine ⟨first.take index, first[index], second[index], first.drop (index + 1), ?_, ?_, ?_⟩
  · intro equal
    exact there (by rw [List.getElem?_eq_getElem inside, List.getElem?_eq_getElem inside', equal])
  · rw [List.getElem_cons_drop, List.take_append_drop]
  · rw [before, after, List.getElem_cons_drop, List.take_append_drop]

/-- Another byte at one place makes a string that differs there only. -/
theorem DifferOnce.of_ne
    {byte byte' : UInt8}
    (differs : byte ≠ byte') (before after : List UInt8) :
    DifferOnce (before ++ byte :: after) (before ++ byte' :: after) where
  length := by rw [List.length_append, List.length_append, List.length_cons, List.length_cons]
  once := by
    refine ⟨before.length, ?_, fun index there => ?_⟩
    · simpa using differs
    · by_contra elsewhere
      rcases Nat.lt_or_gt_of_ne elsewhere with earlier | later
      · exact there (by rw [List.getElem?_append_left earlier, List.getElem?_append_left earlier])
      · obtain ⟨further, rfl⟩ := Nat.exists_eq_add_of_lt later
        exact there (by simp [List.getElem?_append_right, Nat.add_assoc])

/-- The bytes before the place lead to one accumulator, the byte there to two different ones, and
the bytes after it keep them different. -/
theorem ofSeededBytes_ne
    {first second : List UInt8}
    (differ : DifferOnce first second) (seed : UInt32) :
    ofSeededBytes seed first ≠ ofSeededBytes seed second := by
  obtain ⟨before, byte, byte', after, differs, rfl, rfl⟩ := differ.exists_split
  intro same
  have folded := scramble_injective same
  rw [List.foldl_append, List.foldl_append, List.foldl_cons, List.foldl_cons] at folded
  exact differs (absorb_byte_injective _ (foldl_absorb_injective after folded))

end Digest

/-- No two seeds give a byte string the same digest, so that no backend has the same score in two
slots; and byte strings which differ in exactly one byte have different digests, without a seed and
under each. -/
theorem digests_told_apart :
    (∀ data, Function.Injective fun seed => Digest.ofSeededBytes seed data) ∧
    (∀ backend, ∀ slot < UInt32.size, ∀ slot' < UInt32.size, slot ≠ slot' →
      LoadBalancer.score slot backend ≠ LoadBalancer.score slot' backend) ∧
    ∀ first second, Digest.DifferOnce first second →
      Digest.ofBytes first ≠ Digest.ofBytes second ∧
        ∀ seed, Digest.ofSeededBytes seed first ≠ Digest.ofSeededBytes seed second := by
  refine ⟨Digest.ofSeededBytes_injective, ?_, fun first second differ => ⟨?_, ?_⟩⟩
  · intro backend slot short slot' short' apart same
    have seeds : UInt32.ofNat slot = UInt32.ofNat slot' :=
      Digest.ofSeededBytes_injective _ (UInt32.toNat_inj.mp same)
    have numbers := congrArg UInt32.toNat seeds
    rw [UInt32.toNat_ofNat_of_lt' short, UInt32.toNat_ofNat_of_lt' short'] at numbers
    exact apart numbers
  · rw [← Digest.ofSeededBytes_zero, ← Digest.ofSeededBytes_zero]
    exact Digest.ofSeededBytes_ne differ 0
  · exact Digest.ofSeededBytes_ne differ

/-- The first and the last slot of a backend, and strings with another byte in the middle. -/
theorem digests_told_apart_middle :
    let backend : Backend := ⟨⟨172, 16, 0, 5⟩, 8080⟩
    let last := LoadBalancer.slotCount - 1
    (0 ≠ last ∧ LoadBalancer.score 0 backend ≠ LoadBalancer.score last backend) ∧
    Digest.DifferOnce [1, 2, 3] [1, 7, 3] ∧
      Digest.ofBytes [1, 2, 3] ≠ Digest.ofBytes [1, 7, 3] := by
  intro backend last
  have apart : 0 ≠ last := by decide
  have differ : Digest.DifferOnce [1, 2, 3] [1, 7, 3] := .of_ne (by decide) [1] [3]
  exact ⟨⟨apart, digests_told_apart.2.1 backend 0 (by decide) last (by decide) apart⟩, differ,
    (digests_told_apart.2.2 _ _ differ).1⟩

end PacketFilter
