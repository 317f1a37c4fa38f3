import PacketFilter.Proofs.Drafts

/-!
# Checksums that verify

Adding the carries back in keeps a sum modulo `0xffff`, and keeps it from
becoming zero.  Of the two numbers below `2 ^ 16` that stand for zero modulo
`0xffff`, a folded sum is therefore the greater one, unless nothing but zeros
has been added.  A byte string with its own checksum filled in adds up to a
multiple of `0xffff` that is not zero, so its checksum is zero.

The sum itself is one of numbers without bound.  `ofBytesIn32?` is the checksum
worked out in 32 bits, which stops at the first sum that does not fit; it agrees
with the other on all byte strings that are not too long.
-/

namespace PacketFilter

namespace Checksum

/-! ## Carries -/

theorem foldCarries_lt (sum : Nat) : foldCarries sum < 2 ^ 16 := by
  fun_induction foldCarries sum with
  | case1 sum carries continues => exact continues
  | case2 sum settled => omega

/-- Folding the carries keeps the sum modulo the greatest number of 16 bits. -/
theorem foldCarries_mod (sum : Nat) : foldCarries sum % 0xffff = sum % 0xffff := by
  fun_induction foldCarries sum with
  | case1 sum carries continues =>
      rw [continues]
      omega
  | case2 sum settled => rfl

/-- A sum that is not zero does not become zero. -/
theorem foldCarries_pos {sum : Nat} (positive : 0 < sum) : 0 < foldCarries sum := by
  fun_induction foldCarries sum with
  | case1 sum carries continues => exact continues (by omega)
  | case2 sum settled => exact positive

/-- Of the two numbers that stand for zero, a sum that is not zero is folded to the greater one. -/
theorem foldCarries_of_multiple
    {sum : Nat} (positive : 0 < sum) (multiple : sum % 0xffff = 0) :
    foldCarries sum = 0xffff := by
  have short := foldCarries_lt sum
  have same := foldCarries_mod sum
  have some := foldCarries_pos positive
  omega

/-! ## Sums -/

/-- Sums of 16-bit numbers add up, as long as the first part ends between two of them. -/
theorem total_append {before : List UInt8} (even : 2 ∣ before.length) (after : List UInt8) :
    total (before ++ after) = total before + total after := by
  fun_induction total before with
  | case1 high low rest continues =>
      rw [List.length_cons, List.length_cons] at even
      rw [List.cons_append, List.cons_append, total, continues (by omega), Nat.add_assoc]
  | case2 high =>
      rw [List.length_singleton] at even
      omega
  | case3 => rw [List.nil_append, Nat.zero_add]

theorem total_numberBytes (value : UInt16) (after : List UInt8) :
    total (Header.numberBytes value ++ after) = value.toNat + total after := by
  show (Header.number _ _).toNat + total after = _
  rw [Header.number_bytes]

/-- The checksum is what the folded sum is short of `0xffff`. -/
theorem toNat_ofBytes_add (data : List UInt8) :
    (ofBytes data).toNat + foldCarries (total data) = 0xffff := by
  have short := foldCarries_lt (total data)
  have complement : (ofBytes data).toNat = 0xffff - foldCarries (total data) := by
    rw [ofBytes, UInt16.toNat_not, UInt16.toNat_ofNat_of_lt' short]
    rfl
  omega

/-- The checksum is zero over a sum that is a multiple of the greatest number of 16 bits, and not
zero. -/
theorem ofBytes_eq_zero
    {data : List UInt8} (positive : 0 < total data) (multiple : total data % 0xffff = 0) :
    ofBytes data = 0 := by
  have complement := toNat_ofBytes_add data
  rw [foldCarries_of_multiple positive multiple] at complement
  apply UInt16.toNat_inj.mp
  rw [UInt16.toNat_zero]
  omega

/-- With its checksum, a sum is a multiple of `0xffff` that is not zero. -/
theorem toNat_ofBytes_add_total (data : List UInt8) :
    0 < (ofBytes data).toNat + total data ∧
      ((ofBytes data).toNat + total data) % 0xffff = 0 := by
  have complement := toNat_ofBytes_add data
  have same := foldCarries_mod (total data)
  refine ⟨?_, by omega⟩
  rcases Nat.eq_zero_or_pos (total data) with nothing | positive
  · -- The checksum of zeros is the other number that stands for zero.
    rw [nothing, foldCarries, if_neg (by decide)] at complement
    omega
  · omega

/-- A checksum that has been filled in where zeros were makes the whole verify. -/
theorem ofBytes_filled {before : List UInt8} (even : 2 ∣ before.length) (after : List UInt8) :
    ofBytes (before ++ (Header.numberBytes (ofBytes (before ++ ([0, 0] ++ after))) ++ after)) =
      0 := by
  have zeros : total ([0, 0] ++ after) = total after :=
    (total_numberBytes 0 after).trans (Nat.zero_add _)
  have complement := toNat_ofBytes_add_total (before ++ ([0, 0] ++ after))
  rw [total_append even, zeros] at complement
  have sum := total_append even
    (Header.numberBytes (ofBytes (before ++ ([0, 0] ++ after))) ++ after)
  rw [total_numberBytes] at sum
  apply ofBytes_eq_zero <;> rw [sum] <;> omega

/-! ## Thirty-two bits -/

/-- The sum of two numbers, if it fits. -/
def add? (left right : UInt32) : Option UInt32 :=
  if left.toNat + right.toNat < 2 ^ 32 then some (left + right) else none

/-- Add the numbers of a byte string to a sum, from the first one on, as long as the sum fits. -/
def accumulate? (sum : UInt32) : List UInt8 → Option UInt32
  | high :: low :: rest => do accumulate? (← add? sum (Header.number high low).toUInt32) rest
  | [high] => add? sum (Header.number high 0).toUInt32
  | [] => some sum

/-- The low half of a number and the carries out of it. -/
def addHalves (sum : UInt32) : UInt32 :=
  (sum &&& (0xffff : UInt32)) + (sum >>> (16 : UInt32))

/-- One round of folding adds the high half to the low one. -/
theorem toNat_addHalves (sum : UInt32) :
    (addHalves sum).toNat = sum.toNat % 0x10000 + sum.toNat / 0x10000 := by
  have small := sum.toNat_lt
  have low : (sum &&& (0xffff : UInt32)).toNat = sum.toNat % 0x10000 := by
    rw [UInt32.toNat_and]
    exact Nat.and_two_pow_sub_one_eq_mod _ 16
  have high : (sum >>> (16 : UInt32)).toNat = sum.toNat / 0x10000 := by
    rw [UInt32.toNat_shiftRight, Nat.shiftRight_eq_div_pow]
    rfl
  rw [addHalves, UInt32.toNat_add, low, high]
  exact Nat.mod_eq_of_lt (by omega)

/-- Add the carries out of the low half back in until there are none. -/
def foldIn32 (sum : UInt32) : UInt32 :=
  if 0xffff < sum.toNat then foldIn32 (addHalves sum) else sum
termination_by sum.toNat
decreasing_by
  rw [toNat_addHalves]
  omega

theorem toNat_foldIn32 (sum : UInt32) : (foldIn32 sum).toNat = foldCarries sum.toNat := by
  fun_induction foldIn32 sum with
  | case1 sum carries continues =>
      rw [continues, toNat_addHalves]
      conv_rhs => rw [foldCarries, if_pos carries]
  | case2 sum settled => rw [foldCarries, if_neg settled]

/-- The checksum in 32 bits, unless a sum does not fit. -/
def ofBytesIn32? (data : List UInt8) : Option UInt16 :=
  (accumulate? 0 data).map fun sum => ~~~(foldIn32 sum).toUInt16

theorem add?_of_fits {left right : UInt32} (fits : left.toNat + right.toNat < 2 ^ 32) :
    add? left right = some (left + right) ∧
      (left + right).toNat = left.toNat + right.toNat := by
  rw [add?, if_pos fits, UInt32.toNat_add, Nat.mod_eq_of_lt fits]
  exact ⟨rfl, rfl⟩

/-- Adding up does not overflow as long as the total fits into 32 bits. -/
theorem exists_accumulate?
    {data : List UInt8} {sum : UInt32} (fits : sum.toNat + total data < 2 ^ 32) :
    ∃ sum', accumulate? sum data = some sum' ∧ sum'.toNat = sum.toNat + total data := by
  fun_induction accumulate? sum data with
  | case1 sum high low rest continues =>
      rw [total] at fits ⊢
      have number : (Header.number high low).toUInt32.toNat = (Header.number high low).toNat :=
        UInt16.toNat_toUInt32 _
      have first : sum.toNat + (Header.number high low).toUInt32.toNat < 2 ^ 32 := by omega
      obtain ⟨added, value⟩ := add?_of_fits first
      obtain ⟨sum', ran, value'⟩ := continues (sum + (Header.number high low).toUInt32) (by omega)
      rw [added]
      exact ⟨sum', ran, by omega⟩
  | case2 sum high =>
      rw [total] at fits ⊢
      have first : sum.toNat + (Header.number high 0).toUInt32.toNat < 2 ^ 32 := fits
      exact ⟨_, add?_of_fits first⟩
  | case3 sum => exact ⟨sum, rfl, rfl⟩

/-- Every two bytes add no more than the greatest number of 16 bits. -/
theorem total_le (data : List UInt8) : total data ≤ 0xffff * ((data.length + 1) / 2) := by
  fun_induction total data with
  | case1 high low rest continues =>
      have small := (Header.number high low).toNat_lt
      rw [List.length_cons, List.length_cons]
      omega
  | case2 high =>
      have small := (Header.number high 0).toNat_lt
      rw [List.length_singleton]
      omega
  | case3 => exact Nat.zero_le _

/-- Byte strings up to this length are added up without a sum that does not fit. -/
theorem ofBytesIn32?_eq {data : List UInt8} (short : data.length ≤ 65536) :
    ofBytesIn32? data = some (ofBytes data) := by
  have bounded := total_le data
  have fits : (0 : UInt32).toNat + total data < 2 ^ 32 := by
    rw [UInt32.toNat_zero]
    omega
  obtain ⟨sum, added, value⟩ := exists_accumulate? fits
  rw [UInt32.toNat_zero, Nat.zero_add] at value
  have folded : (foldIn32 sum).toUInt16 = UInt16.ofNat (foldCarries (total data)) := by
    rw [← value, ← toNat_foldIn32]
    rfl
  rw [ofBytesIn32?, added, Option.map_some, folded, ofBytes]

end Checksum

/-! ## Byte strings as wholes -/

namespace Bytes

theorem inside_of_slice
    {bytes : Bytes} {place length : Nat} (some : 0 < length)
    (long : (bytes.slice place length).length = length) :
    place + length ≤ bytes.size := by
  rw [slice, Array.length_toList, Array.size_extract] at long
  omega

/-- What is read at a place has bytes before and after it. -/
theorem toList_around
    {bytes : Bytes} {place length : Nat} {data : List UInt8}
    (inside : place + length ≤ bytes.size) (read : bytes.slice place length = data) :
    ∃ before after, before.length = place ∧ bytes.toList = before ++ (data ++ after) := by
  obtain ⟨rest, size⟩ := Nat.exists_eq_add_of_le inside
  have parts : bytes.toList = bytes.slice 0 place ++
      (data ++ bytes.slice (place + length) rest) := by
    rw [← slice_all, size, Nat.add_assoc, slice_add, slice_add, Nat.zero_add, read]
  exact ⟨_, _, slice_length (by omega), parts⟩

theorem toList_overwrite_within
    {bytes : Bytes} {before old data after : List UInt8}
    (whole : bytes.toList = before ++ (old ++ after)) (sized : data.length = old.length) :
    (bytes.overwrite before.length data).toList = before ++ (data ++ after) := by
  have holds : bytes.Holds 0 (before ++ (old ++ after)) := by
    rw [← whole, holds_iff, Array.length_toList, Nat.zero_add]
    exact ⟨Nat.le_refl _, slice_all bytes⟩
  have length : (before ++ (data ++ after)).length = bytes.size := by
    rw [← Array.length_toList, whole]
    simp only [List.length_append, sized]
  have held := (holds_iff.mp (holds.overwrite_within sized)).2
  rwa [Nat.zero_add, length, ← overwrite_size bytes before.length data, slice_all] at held

theorem slice_toArray_append (before middle after : List UInt8) :
    Bytes.slice (before ++ (middle ++ after)).toArray before.length middle.length = middle := by
  simp [slice]

end Bytes

/-! ## The network header -/

namespace FrameDraft

/-- The checksum takes the place of two bytes, an even number of bytes from the start. -/
theorem exists_around_checksum (draft : FrameDraft) :
    ∃ before after, 2 ∣ before.length ∧
      ∀ checksum, draft.networkHeader checksum =
        before ++ (Header.numberBytes checksum ++ after) := by
  let length := Header.networkSize + draft.options.length
  let total := length + draft.transportHeader.length + draft.payload.length
  refine ⟨[0x40 ||| UInt8.ofNat (length / 4), 0] ++ Header.numberBytes (UInt16.ofNat total) ++
    [0, 0, 0, 0, draft.timeToLive, draft.protocol],
    draft.source.toList ++ draft.destination.toList ++ draft.options, ⟨5, rfl⟩,
    fun checksum => ?_⟩
  simp only [networkHeader, List.append_assoc]
  rfl

/-- The checksum of a header that carries its own checksum is zero. -/
theorem ofBytes_networkHeader (draft : FrameDraft) :
    Checksum.ofBytes (draft.networkHeader draft.checksum) = 0 := by
  obtain ⟨before, after, even, around⟩ := draft.exists_around_checksum
  rw [around, checksum, around]
  exact Checksum.ofBytes_filled even after

/-- The header that the frame says it has is the one it has been given. -/
theorem Aligned.slice_headers
    {draft : FrameDraft} (aligned : draft.Aligned) (rest : List UInt8) :
    let frame := (draft.headers ++ rest).toArray
    Bytes.slice frame Header.linkSize
        (Header.networkLength (Header.byteAt frame Header.versionOffset)) =
      draft.networkHeader draft.checksum := by
  intro frame
  rw [(aligned.version rest).2, ← networkHeader_length draft draft.checksum]
  show Bytes.slice (draft.headers ++ rest).toArray draft.linkHeader.length _ = _
  rw [headers, List.append_assoc]
  exact Bytes.slice_toArray_append _ _ _

end FrameDraft

/-- Byte strings of up to `65536` bytes are added up without overflow; one that has its checksum
filled in where two zeros were, at an even place, verifies; and so does the network header of every
frame that has one. -/
theorem checksums_verify :
    (∀ data : List UInt8, data.length ≤ 65536 →
      Checksum.ofBytesIn32? data = some (Checksum.ofBytes data)) ∧
    (∀ (bytes : Bytes) (place : Nat), 2 ∣ place → bytes.slice place 2 = [0, 0] →
      Checksum.ofBytes (bytes.overwrite place
        (Header.numberBytes (Checksum.ofBytes bytes.toList))).toList = 0) ∧
    ∀ (flow? : Option Flow) (calls : List DraftCall),
      let draft := FrameDraft.ofCalls flow? calls
      let frame := draft.assemble
      draft.frameType = Header.networkType →
        Checksum.ofBytes (frame.slice Header.linkSize
          (Header.networkLength (Header.byteAt frame Header.versionOffset))) = 0 := by
  refine ⟨fun data => Checksum.ofBytesIn32?_eq, fun bytes place even zeros => ?_, ?_⟩
  · have inside : place + 2 ≤ bytes.size :=
      Bytes.inside_of_slice (by decide) (congrArg List.length zeros)
    obtain ⟨before, after, rfl, whole⟩ := Bytes.toList_around inside zeros
    have sized : (Header.numberBytes (Checksum.ofBytes bytes.toList)).length =
        List.length [(0 : UInt8), 0] := rfl
    rw [Bytes.toList_overwrite_within whole sized, whole]
    exact Checksum.ofBytes_filled even after
  · intro flow? calls draft frame network
    have aligned : draft.Aligned := FrameDraft.ofCalls_aligned flow? calls
    have built : frame = _ := FrameDraft.assemble_of_network network
    rw [built, aligned.slice_headers]
    exact draft.ofBytes_networkHeader

/-- Three bytes of options, a checksum between other bytes, and a sum in 32 bits. -/
theorem checksums_verify_options :
    let draft := FrameDraft.ofCalls none [.carryTcp, .setOptions [7, 7, 7]]
    let frame := draft.assemble
    let bytes : Bytes := #[0x12, 0x34, 0, 0, 0xff, 0xff]
    (draft.frameType = Header.networkType ∧
      Checksum.ofBytes (frame.slice Header.linkSize
        (Header.networkLength (Header.byteAt frame Header.versionOffset))) = 0) ∧
    (bytes.slice 2 2 = [0, 0] ∧
      Checksum.ofBytes (bytes.overwrite 2
        (Header.numberBytes (Checksum.ofBytes bytes.toList))).toList = 0) ∧
    bytes.toList.length ≤ 65536 ∧
      Checksum.ofBytesIn32? bytes.toList = some (Checksum.ofBytes bytes.toList) := by
  intro draft frame bytes
  have zeros : bytes.slice 2 2 = [0, 0] := by decide
  have short : bytes.toList.length ≤ 65536 := by decide
  exact ⟨⟨rfl, checksums_verify.2.2 none [.carryTcp, .setOptions [7, 7, 7]] rfl⟩,
    ⟨zeros, checksums_verify.2.1 bytes 2 (by decide) zeros⟩, short, checksums_verify.1 _ short⟩

end PacketFilter
