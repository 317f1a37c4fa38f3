import Mathlib.Data.BitVec
import PacketFilter.Machine.Memory
import PacketFilter.Proofs.Word

/-!
# Bytes of words and stretches of byte strings

Two groups of facts about bytes.  The number that a list of bytes stands for
is limited by the length of the list, and the eight bytes that a word is laid
out as give the word back.  A stretch that has been overwritten reads as what
was written there, and every byte outside of it as before.

Stretches are compared byte by byte, by their index in the whole string.
-/

namespace PacketFilter

namespace Word

theorem ofBytes_cons_bit (byte : UInt8) (rest : List UInt8) {index : Nat} (inside : index < 64) :
    (ofBytes (byte :: rest)).getLsbD index =
      if index < 8 then byte.toBitVec.getLsbD index else (ofBytes rest).getLsbD (index - 8) := by
  simp only [ofBytes, BitVec.getLsbD_or, BitVec.getLsbD_shiftLeft, BitVec.zeroExtend,
    BitVec.getLsbD_setWidth, inside, decide_true, Bool.true_and]
  split
  case isTrue low => simp [low]
  case isFalse high => simp [high, BitVec.getLsbD_of_ge _ index (Nat.le_of_not_lt high)]

/-- So many bytes make up a number of no more bits. -/
theorem toNat_ofBytes_lt (bytes : List UInt8) :
    (ofBytes bytes).toNat < 2 ^ (bytes.length * 8) := by
  induction bytes with
  | nil => decide
  | cons byte rest hypothesis =>
      have low : (byte.toBitVec.zeroExtend 64).toNat < 2 ^ 8 := by
        rw [BitVec.zeroExtend, BitVec.toNat_setWidth]
        exact Nat.lt_of_le_of_lt (Nat.mod_le _ _) byte.toBitVec.isLt
      have shifted : (ofBytes rest <<< 8).toNat ≤ (ofBytes rest).toNat * 2 ^ 8 := by
        rw [BitVec.toNat_shiftLeft, Nat.shiftLeft_eq]
        exact Nat.mod_le _ _
      have longer : 2 ^ ((rest.length + 1) * 8) = 2 ^ (rest.length * 8) * 2 ^ 8 := by
        rw [← Nat.pow_add, Nat.add_mul, Nat.one_mul]
      have positive := Nat.two_pow_pos (rest.length * 8)
      rw [ofBytes, BitVec.toNat_or, List.length_cons]
      apply Nat.or_lt_two_pow <;> rw [longer] <;> omega

theorem ofBytes_bit (bytes : List UInt8) :
    ∀ {index : Nat}, index < 64 →
      (ofBytes bytes).getLsbD index =
        ((bytes[index / 8]?).getD 0).toBitVec.getLsbD (index % 8) := by
  induction bytes with
  | nil =>
      intro index inside
      simp [ofBytes]
  | cons byte rest hypothesis =>
      intro index inside
      rw [ofBytes_cons_bit byte rest inside]
      split
      case isTrue low =>
        rw [Nat.div_eq_of_lt low, Nat.mod_eq_of_lt low]
        rfl
      case isFalse high =>
        obtain ⟨before, rfl⟩ : ∃ before, index = before + 8 := ⟨index - 8, by omega⟩
        rw [Nat.add_sub_cancel, hypothesis (by omega), Nat.add_mod_right,
          Nat.add_div_right before (by decide)]
        rfl

theorem ofBytes_eq_zero
    {bytes : List UInt8}
    (zeros : ∀ byte ∈ bytes, byte = 0) :
    ofBytes bytes = 0 := by
  apply BitVec.eq_of_getLsbD_eq
  intro index inside
  rw [ofBytes_bit bytes inside]
  cases found : bytes[index / 8]? with
  | none => simp
  | some byte => simp [zeros byte (List.mem_of_getElem? found)]

end Word

namespace Memory

@[simp]
theorem layOut_length (value : Word) (length : Nat) : (layOut value length).length = length := by
  simp [layOut]

theorem layOut_getElem? (value : Word) {length index : Nat} (inside : index < length) :
    (layOut value length)[index]? =
      some (UInt8.ofBitVec ((value >>> (index % 8 * 8)).setWidth 8)) := by
  simp [layOut, inside]

/-- Eight bytes hold the whole word. -/
theorem ofBytes_layOut (value : Word) : Word.ofBytes (layOut value 8) = value := by
  apply BitVec.eq_of_getLsbD_eq
  intro index inside
  have byte : index / 8 < 8 := by omega
  have position : index / 8 * 8 + index % 8 = index := by omega
  have low : index % 8 < 8 := Nat.mod_lt index (by decide)
  rw [Word.ofBytes_bit _ inside, layOut_getElem? value byte, Option.getD_some,
    BitVec.getLsbD_setWidth, BitVec.getLsbD_ushiftRight, Nat.mod_eq_of_lt byte, position]
  simp [low]

/-- Bytes that have been read as a number are laid out again as they were. -/
theorem layOut_ofBytes {bytes : List UInt8} (short : bytes.length ≤ 8) :
    layOut (Word.ofBytes bytes) bytes.length = bytes := by
  apply List.ext_getElem?
  intro index
  by_cases inside : index < bytes.length
  · rw [layOut_getElem? _ inside, List.getElem?_eq_getElem inside]
    refine congrArg some (UInt8.toBitVec_inj.mp ?_)
    apply BitVec.eq_of_getLsbD_eq
    intro bit low
    have bound : index * 8 + bit < 64 := by omega
    have whole : index % 8 = index := by omega
    have byte : (index * 8 + bit) / 8 = index := by omega
    have rest : (index * 8 + bit) % 8 = bit := by omega
    rw [whole, BitVec.getLsbD_setWidth, BitVec.getLsbD_ushiftRight, Word.ofBytes_bit _ bound, byte,
      rest, List.getElem?_eq_getElem inside]
    simp [low]
  · rw [List.getElem?_eq_none (by simpa using inside),
      List.getElem?_eq_none (by simpa using inside)]

/-- For no more bytes than a word has, laying it out gives its bytes. -/
theorem layOut_eq_toBytes {length : Nat} (short : length ≤ 8) (value : Word) :
    layOut value length = value.toBytes length := by
  have shifted (length : Nat) : ∀ value : Word,
      value.toBytes length =
        (List.range length).map fun index =>
          UInt8.ofBitVec ((value >>> (index * 8)).setWidth 8) := by
    induction length with
    | zero => exact fun _ => rfl
    | succ length continues =>
        intro value
        rw [Word.toBytes, continues, List.range_succ_eq_map, List.map_cons, List.map_map]
        refine congrArg₂ _ (by simp) (List.map_congr_left fun index _ => ?_)
        rw [Function.comp_apply, Nat.succ_mul, Nat.add_comm, BitVec.shiftRight_add]
  rw [shifted, layOut]
  refine List.map_congr_left fun index inside => ?_
  rw [Nat.mod_eq_of_lt (Nat.lt_of_lt_of_le (List.mem_range.mp inside) short)]

theorem layOut_zero {length : Nat} : ∀ byte ∈ layOut 0 length, byte = 0 := by
  intro byte found
  simp only [layOut, List.mem_map] at found
  obtain ⟨index, _, rfl⟩ := found
  simp

end Memory

namespace Bytes

theorem covers_iff {bytes : Bytes} {offset length : Nat} :
    bytes.covers offset length = true ↔ offset + length ≤ bytes.size := by
  simp [covers]

/-- What lies at an index of a slice. -/
theorem slice_getElem? (bytes : Bytes) (offset length index : Nat) :
    (bytes.slice offset length)[index]? =
      if index < length then bytes[offset + index]? else none := by
  rw [slice, Array.getElem?_toList, Array.getElem?_extract]
  split
  case isTrue inside =>
    rw [if_pos (by omega)]
  case isFalse outside =>
    by_cases short : index < length
    · rw [if_pos short, Array.getElem?_eq_none (by omega)]
    · rw [if_neg short]

theorem slice_length
    {bytes : Bytes} {offset length : Nat}
    (inside : offset + length ≤ bytes.size) :
    (bytes.slice offset length).length = length := by
  rw [slice, Array.length_toList, Array.size_extract]
  omega

theorem read?_of_inside
    {bytes : Bytes} {offset length : Nat}
    (inside : offset + length ≤ bytes.size) :
    bytes.read? offset length = some (bytes.slice offset length) := by
  rw [read?, if_pos (covers_iff.mpr inside)]

@[simp]
theorem overwrite_size (bytes : Bytes) (offset : Nat) (data : List UInt8) :
    (bytes.overwrite offset data).size = bytes.size := by
  induction data generalizing bytes offset with
  | nil => rfl
  | cons byte rest hypothesis => rw [overwrite, hypothesis, Array.size_setIfInBounds]

theorem overwrite_getElem? (data : List UInt8) :
    ∀ (bytes : Bytes) (offset index : Nat),
      (bytes.overwrite offset data)[index]? =
        if offset ≤ index ∧ index < offset + data.length ∧ index < bytes.size then
          data[index - offset]?
        else
          bytes[index]? := by
  induction data with
  | nil =>
      intro bytes offset index
      rw [overwrite, if_neg]
      simp only [List.length_nil]
      omega
  | cons byte rest hypothesis =>
      intro bytes offset index
      rw [overwrite, hypothesis, Array.size_setIfInBounds, List.length_cons,
        Array.getElem?_setIfInBounds]
      by_cases first : offset = index
      · subst first
        by_cases inside : offset < bytes.size
        · simp [inside]
        · simp [inside]
      · by_cases later : offset + 1 ≤ index ∧ index < offset + 1 + rest.length ∧ index < bytes.size
        · have position : index - offset = index - (offset + 1) + 1 := by omega
          rw [if_pos later, if_pos (by omega), position, List.getElem?_cons_succ]
        · rw [if_neg later, if_neg first, if_neg (by omega)]

/-- What has been written to a stretch is read back from it. -/
theorem slice_overwrite
    {bytes : Bytes} {offset : Nat} {data : List UInt8}
    (inside : offset + data.length ≤ bytes.size) :
    (bytes.overwrite offset data).slice offset data.length = data := by
  apply List.ext_getElem?
  intro index
  rw [slice_getElem?, overwrite_getElem?]
  split
  case isTrue short =>
    rw [if_pos (by omega), Nat.add_sub_cancel_left]
  case isFalse long =>
    rw [List.getElem?_eq_none (Nat.le_of_not_lt long)]

/-- Strings that agree on a stretch read the same there. -/
theorem slice_congr
    {bytes bytes' : Bytes} {offset length : Nat}
    (agree : ∀ index < length, bytes[offset + index]? = bytes'[offset + index]?) :
    bytes.slice offset length = bytes'.slice offset length := by
  apply List.ext_getElem?
  intro index
  rw [slice_getElem?, slice_getElem?]
  split
  case isTrue short => exact agree index short
  case isFalse => rfl

/-- Writing elsewhere does not change what a stretch reads as. -/
theorem slice_overwrite_apart
    {bytes : Bytes} {place length offset : Nat} {data : List UInt8}
    (apart : offset + data.length ≤ place ∨ place + length ≤ offset) :
    (bytes.overwrite offset data).slice place length = bytes.slice place length := by
  refine slice_congr fun index inside => ?_
  rw [overwrite_getElem?, if_neg (by omega)]

/-- These bytes stand at a place. -/
def Holds (bytes : Bytes) (place : Nat) (data : List UInt8) : Prop :=
  bytes.read? place data.length = some data

variable {bytes : Bytes} {place : Nat} {data first second : List UInt8}

theorem holds_iff :
    bytes.Holds place data ↔
      place + data.length ≤ bytes.size ∧ bytes.slice place data.length = data := by
  rw [Holds, read?, ← covers_iff]
  cases bytes.covers place data.length <;> simp

theorem slice_add (bytes : Bytes) (place length length' : Nat) :
    bytes.slice place (length + length') =
      bytes.slice place length ++ bytes.slice (place + length) length' := by
  have middle : place + length ≤ place + (length + length') := by omega
  rw [slice, slice, slice, ← Array.toList_append, Array.extract_append_extract,
    Nat.min_eq_left (by omega),
    Nat.max_eq_right (by omega), Nat.add_assoc]

theorem holds_slice {length : Nat} (inside : place + length ≤ bytes.size) :
    bytes.Holds place (bytes.slice place length) := by
  rw [Holds, slice_length inside, read?_of_inside inside]

/-- Bytes stand at a place with others right after them. -/
theorem holds_append :
    bytes.Holds place (first ++ second) ↔
      bytes.Holds place first ∧ bytes.Holds (place + first.length) second := by
  simp only [holds_iff, List.length_append, slice_add]
  constructor
  · rintro ⟨inside, whole⟩
    have length : (bytes.slice place first.length).length = first.length :=
      slice_length (by omega)
    rcases List.append_inj whole length with ⟨here, there⟩
    exact ⟨⟨by omega, here⟩, by omega, there⟩
  · rintro ⟨⟨_, here⟩, inside, there⟩
    rw [here, there]
    exact ⟨by omega, rfl⟩

theorem holds_overwrite (inside : place + data.length ≤ bytes.size) :
    (bytes.overwrite place data).Holds place data :=
  holds_iff.mpr ⟨by rwa [overwrite_size], slice_overwrite inside⟩

/-- Bytes that are written elsewhere leave those at a place alone. -/
theorem Holds.overwrite
    {offset : Nat} {written : List UInt8} (holds : bytes.Holds place data)
    (apart : offset + written.length ≤ place ∨ place + data.length ≤ offset) :
    (bytes.overwrite offset written).Holds place data := by
  rcases holds_iff.mp holds with ⟨inside, same⟩
  exact holds_iff.mpr ⟨by rwa [overwrite_size], (slice_overwrite_apart apart).trans same⟩

/-- Some of the bytes at a place are written over. -/
theorem Holds.overwrite_within
    {before old after : List UInt8} (holds : bytes.Holds place (before ++ (old ++ after)))
    (sized : data.length = old.length) :
    (bytes.overwrite (place + before.length) data).Holds place (before ++ (data ++ after)) := by
  rcases holds_append.mp holds with ⟨here, rest⟩
  rcases holds_append.mp rest with ⟨middle, there⟩
  have inside := (holds_iff.mp middle).1
  rw [← sized] at there inside
  refine holds_append.mpr ⟨here.overwrite (.inr (Nat.le_refl _)), holds_append.mpr ⟨?_, ?_⟩⟩
  · exact holds_overwrite inside
  · exact there.overwrite (.inl (Nat.le_refl _))

end Bytes

end PacketFilter
