import PacketFilter.Map.PackedCell
import PacketFilter.Proofs.Access
import PacketFilter.Proofs.Series

/-!
# Packed cells hold byte strings

A packed cell answers every series of calls as the cell that it is unpacked
to, and both answer as a plain byte string does, unless a lane is torn: its
offset is a multiple of its size, but it goes past the end of the word that
serves it, so that its last bytes are neither read nor written.

Words are compared bit by bit: `splice_bit` says what a write does to a word,
`byte_bit` where the bits of a byte are.  From these `lane_eq` and
`unpacked_setLane` follow, and every other access is made of lanes and bytes.
-/

namespace PacketFilter

namespace Word

theorem toBytes_getElem? {length index : Nat} (value : Word) (short : length ≤ 8)
    (inside : index < length) :
    (value.toBytes length)[index]? =
      some (UInt8.ofBitVec ((value >>> (index * 8)).setWidth 8)) := by
  rw [← Memory.layOut_eq_toBytes short, Memory.layOut_getElem? value inside,
    Nat.mod_eq_of_lt (Nat.lt_of_lt_of_le inside short)]

/-- At most eight bytes are found again in the word they make. -/
theorem toBytes_ofBytes {bytes : List UInt8} (short : bytes.length ≤ 8) :
    (ofBytes bytes).toBytes bytes.length = bytes := by
  rw [← Memory.layOut_eq_toBytes short, Memory.layOut_ofBytes short]

theorem toBytes_length (value : Word) (length : Nat) : (value.toBytes length).length = length := by
  induction length generalizing value with
  | zero => rfl
  | succ length ih => rw [toBytes, List.length_cons, ih]

end Word

namespace Bytes

theorem slice_zero (bytes : Bytes) (offset : Nat) : bytes.slice offset 0 = [] :=
  List.eq_nil_of_length_eq_zero (by rw [slice, Array.length_toList, Array.size_extract]; omega)

theorem slice_succ {bytes : Bytes} {offset length : Nat} {byte : UInt8}
    (there : bytes[offset]? = some byte) :
    bytes.slice offset (length + 1) = byte :: bytes.slice (offset + 1) length := by
  apply List.ext_getElem?
  intro index
  rw [slice_getElem?]
  cases index with
  | zero => rw [if_pos (Nat.succ_pos length), Nat.add_zero, there, List.getElem?_cons_zero]
  | succ index =>
      rw [List.getElem?_cons_succ, slice_getElem?, Nat.add_right_comm offset 1 index]
      exact if_congr Nat.succ_lt_succ_iff rfl rfl

/-- Two stretches that follow each other are written as one. -/
theorem overwrite_append (bytes : Bytes) (offset : Nat) (first second : List UInt8) :
    bytes.overwrite offset (first ++ second) =
      (bytes.overwrite offset first).overwrite (offset + first.length) second := by
  induction first generalizing bytes offset with
  | nil => rfl
  | cons byte rest ih =>
      rw [List.cons_append, overwrite, ih, overwrite, List.length_cons, Nat.add_assoc,
        Nat.add_comm 1]

end Bytes

/-! ## Lanes -/

namespace Cell

variable {offset length : Nat}

theorem isLane_iff :
    isLane offset length = true ↔ length ≠ 0 ∧ length ≤ 8 ∧ offset % length = 0 := by
  rw [isLane, Bool.and_eq_true, Bool.and_eq_true, decide_eq_true_iff, decide_eq_true_iff,
    beq_iff_eq, and_assoc]

theorem isLane_one (index : Nat) : isLane index 1 :=
  isLane_iff.mpr ⟨by decide, by decide, Nat.mod_one index⟩

/-- A lane reaches to the end of its word at most. -/
theorem reach_of_isLane (lane : isLane offset length) :
    reach offset length = min length (8 - offset % 8) :=
  if_pos lane

/-- An access that is no lane reaches all of its bytes. -/
theorem reach_of_not_isLane (unaligned : ¬ isLane offset length) : reach offset length = length :=
  if_neg unaligned

/-- A size that divides eight bytes is never cut short. -/
theorem reach_of_dvd (divides : length ∣ 8) : reach offset length = length := by
  by_cases lane : isLane offset length
  · rw [reach_of_isLane lane]
    rcases isLane_iff.mp lane with ⟨some, _, aligned⟩
    rcases divides with ⟨count, eight⟩
    rcases Nat.dvd_of_mod_eq_zero aligned with ⟨place, rfl⟩
    -- In lanes, the offset in the word is below their number in a word.
    have inWord : length * place % 8 = length * (place % count) := by
      rw [eight, Nat.mul_mod_mul_left]
    have positive : 0 < count := Nat.pos_of_ne_zero fun none => by
      rw [none] at eight
      cases eight
    have next : length * (place % count + 1) ≤ length * count :=
      Nat.mul_le_mul_left length (Nat.mod_lt place positive)
    rw [Nat.mul_add, Nat.mul_one] at next
    rw [inWord]
    omega
  · exact reach_of_not_isLane lane

/-! ## When an access is refused -/

/-- A load answers where it fits and has at most eight bytes. -/
theorem load?_eq_ite (cell : Cell) (offset length : Nat) :
    cell.load? offset length =
      if offset + length ≤ cell.size ∧ length ≤ 8 then some (cell.integerAt offset length)
      else none :=
  if_congr (by rw [Bool.and_eq_true, covers_iff, decide_eq_true_iff]) rfl rfl

/-- A store writes where it fits and has at most eight bytes. -/
theorem store?_eq_ite (cell : Cell) (offset length : Nat) (value : Word) :
    cell.store? offset length value =
      if offset + length ≤ cell.size ∧ length ≤ 8 then some (cell.withInteger offset length value)
      else none :=
  if_congr (by rw [Bool.and_eq_true, covers_iff, decide_eq_true_iff]) rfl rfl

/-- An atomic operation takes place where it fits and is a lane. -/
theorem update?_eq_ite (cell : Cell) (offset length : Nat) (change : Word → Word) :
    cell.update? offset length change =
      if offset + length ≤ cell.size ∧ isLane offset length then
        some (cell.integerAt offset length,
          cell.withInteger offset length (change (cell.integerAt offset length)))
      else none :=
  if_congr (by rw [Bool.and_eq_true, covers_iff]) rfl rfl

theorem read?_eq_ite (cell : Cell) (offset length : Nat) :
    cell.read? offset length =
      if offset + length ≤ cell.size then some (Bytes.slice cell.bytes offset length) else none :=
  if_congr Bytes.covers_iff rfl rfl

theorem write?_eq_ite (cell : Cell) (offset : Nat) (data : List UInt8) :
    cell.write? offset data =
      if offset + data.length ≤ cell.size then some ⟨Bytes.overwrite cell.bytes offset data⟩
      else none := by
  rw [write?, Bytes.write?]
  by_cases inside : offset + data.length ≤ cell.size
  · rw [if_pos (Bytes.covers_iff.mpr inside), if_pos inside]
    rfl
  · rw [if_neg (mt Bytes.covers_iff.mp inside), if_neg inside]
    rfl

end Cell

namespace PackedCell

variable {size : Nat} {cell : PackedCell size} {index offset length : Nat}

/-! ## Words, bit by bit -/

/-- The mask of a length has the bits of that many bytes. -/
theorem mask_bit (short : length ≤ 8) (bit : Nat) :
    (mask length).getLsbD bit = decide (bit < length * 8) := by
  unfold mask
  split
  case isTrue whole => rw [Word.allOnes, BitVec.getLsbD_allOnes, whole]
  case isFalse part =>
    have small : 2 ^ (length * 8) < 2 ^ 64 := Nat.pow_lt_pow_right (by decide) (by omega)
    have shifted : ((1 : Word) <<< (length * 8)).toNat = 2 ^ (length * 8) := by
      rw [BitVec.toNat_shiftLeft, Nat.shiftLeft_eq]
      show 1 * _ % _ = _
      rw [Nat.one_mul, Nat.mod_eq_of_lt small]
    have count : ((1 : Word) <<< (length * 8) - 1).toNat = 2 ^ (length * 8) - 1 := by
      rw [BitVec.toNat_sub_of_le, shifted]
      · rfl
      · rw [BitVec.le_def, shifted]
        exact Nat.two_pow_pos (length * 8)
    rw [BitVec.getLsbD, count, Nat.testBit_two_pow_sub_one]

/-- A spliced word has the bits of the value under the mask, and its own elsewhere. -/
theorem splice_bit (word mask value : Word) {shift bit : Nat} (low : bit < 64) :
    (splice word shift mask (value &&& mask)).getLsbD bit =
      if shift ≤ bit ∧ mask.getLsbD (bit - shift) then value.getLsbD (bit - shift)
      else word.getLsbD bit := by
  simp only [splice, BitVec.getLsbD_or, BitVec.getLsbD_and, BitVec.getLsbD_not,
    BitVec.getLsbD_shiftLeft, low, decide_true, Bool.true_and]
  by_cases above : shift ≤ bit
  · have reached : ¬ bit < shift := Nat.not_lt.mpr above
    rcases masked : mask.getLsbD (bit - shift) <;> simp [above, reached]
  · have below : bit < shift := Nat.not_le.mp above
    simp [above, below]

/-- A write that covers the whole word leaves nothing of it. -/
theorem splice_whole (word value : Word) : splice word 0 (mask 8) (value &&& mask 8) = value := by
  apply BitVec.eq_of_getLsbD_eq
  intro bit low
  rw [splice_bit word (mask 8) value low, if_pos]
  · rfl
  · exact ⟨Nat.zero_le bit, (mask_bit (Nat.le_refl 8) bit).trans (decide_eq_true low)⟩

/-- A word that is set is read back at each of its bytes, and the other words stay. -/
theorem word_setWord (inside : index < size) (word : Word) {other : Nat} (there : other < size) :
    (cell.setWord index inside word).word other there =
      if other / 8 = index / 8 then word else cell.word other there := by
  have bounds := word_lt inside
  have bounds' := word_lt there
  show (cell.words.set (index / 8) word bounds)[other / 8] =
    if _ then word else cell.words[other / 8]
  rw [Vector.getElem_set]
  exact if_congr eq_comm rfl rfl

/-- A byte is eight bits of its word. -/
theorem byte_bit (inside : index < size) {bit : Nat} (low : bit < 8) :
    (cell.byte index inside).toBitVec.getLsbD bit =
      (cell.word index inside).getLsbD (shift index + bit) := by
  rw [byte, BitVec.getLsbD_setWidth, BitVec.getLsbD_ushiftRight, decide_eq_true low, Bool.true_and]

theorem word_congr {other : Nat} (inside : index < size) (there : other < size)
    (same : other / 8 = index / 8) : cell.word other there = cell.word index inside := by
  unfold word
  exact congrArg cell.words.get (Fin.ext same)

/-! ## The bytes that are kept -/

theorem unpacked_size : cell.unpacked.bytes.size = size :=
  Array.size_ofFn

theorem unpacked_cellSize (cell : PackedCell size) : cell.unpacked.size = size :=
  unpacked_size

theorem unpacked_getElem? (inside : index < size) :
    cell.unpacked.bytes[index]? = some (cell.byte index inside) := by
  rw [unpacked, Array.getElem?_ofFn, dif_pos inside]

theorem unpacked_getElem?_of_ge (outside : size ≤ index) : cell.unpacked.bytes[index]? = none :=
  Array.getElem?_eq_none (unpacked_size.trans_le outside)

/-- A packed cell is known by its bytes. -/
theorem unpacked_eq {bytes : Bytes} (sized : bytes.size = size)
    (alike : ∀ index, (inside : index < size) → bytes[index]? = some (cell.byte index inside)) :
    cell.unpacked = ⟨bytes⟩ := by
  refine congrArg Cell.mk (Array.ext_getElem? fun index => ?_)
  by_cases inside : index < size
  · exact (unpacked_getElem? inside).trans (alike index inside).symm
  · have outside := Nat.not_lt.mp inside
    exact (unpacked_getElem?_of_ge outside).trans
      (Array.getElem?_eq_none (sized.trans_le outside)).symm

/-- A lane is the integer of the bytes up to the end of its word. -/
theorem lane_eq (lane : Cell.isLane offset length) (inside : offset + length ≤ size) :
    cell.lane offset length (lane_inside lane inside) = cell.unpacked.integerAt offset length := by
  have short := (Cell.isLane_iff.mp lane).2.1
  have reach := Cell.reach_of_isLane lane
  have begins := lane_inside lane inside
  apply BitVec.eq_of_getLsbD_eq
  intro bit low
  rw [PackedCell.lane, BitVec.getLsbD_and, BitVec.getLsbD_ushiftRight, mask_bit short,
    Cell.integerAt, Word.ofBytes_bit _ low, Bytes.slice_getElem?]
  split
  case isTrue reached =>
    have within : offset + bit / 8 < size := by omega
    have place : shift (offset + bit / 8) + bit % 8 = shift offset + bit := by
      unfold shift
      omega
    rw [unpacked_getElem? within, Option.getD_some, byte_bit within (Nat.mod_lt bit (by decide)),
      word_congr begins within (by omega), place, decide_eq_true (by omega), Bool.and_true]
  case isFalse missed =>
    rw [Option.getD_none]
    by_cases wide : bit < length * 8
    · rw [BitVec.getLsbD_of_ge _ (shift offset + bit) (by unfold shift; omega), Bool.false_and]
      simp
    · rw [decide_eq_false wide, Bool.and_false]
      simp

/-- Setting a lane stores the low bytes of an integer, up to the end of the word. -/
theorem unpacked_setLane (lane : Cell.isLane offset length) (inside : offset + length ≤ size)
    (value : Word) :
    (cell.setLane offset length (lane_inside lane inside) value).unpacked =
      cell.unpacked.withInteger offset length value := by
  have short := (Cell.isLane_iff.mp lane).2.1
  have reach := Cell.reach_of_isLane lane
  have begins := lane_inside lane inside
  refine unpacked_eq ?_ fun index within => ?_
  · rw [Bytes.overwrite_size, unpacked_size]
  rw [Bytes.overwrite_getElem?, Word.toBytes_length, unpacked_size]
  split
  case isTrue reached =>
    rw [Word.toBytes_getElem? value (Nat.le_trans (Cell.reach_le offset length) short) (by omega)]
    refine congrArg some (UInt8.toBitVec_inj.mp (BitVec.eq_of_getLsbD_eq fun bit low => ?_))
    have place : shift index + bit - shift offset = (index - offset) * 8 + bit := by
      unfold shift
      omega
    have covered : shift offset ≤ shift index + bit ∧
        (mask length).getLsbD (shift index + bit - shift offset) := by
      refine ⟨by unfold shift; omega, ?_⟩
      rw [mask_bit short, place]
      exact decide_eq_true (by omega)
    rw [byte_bit within low, setLane, word_setWord begins, if_pos (by omega),
      splice_bit _ _ _ (by unfold shift; omega), if_pos covered, place]
    show (BitVec.setWidth 8 _).getLsbD bit = _
    rw [BitVec.getLsbD_setWidth, BitVec.getLsbD_ushiftRight, decide_eq_true low, Bool.true_and]
  case isFalse missed =>
    rw [unpacked_getElem? within]
    refine congrArg some (UInt8.toBitVec_inj.mp (BitVec.eq_of_getLsbD_eq fun bit low => ?_))
    rw [byte_bit within low, byte_bit within low, setLane, word_setWord begins]
    split
    case isTrue same =>
      rw [splice_bit _ _ _ (by unfold shift; omega), if_neg, word_congr begins within same]
      rintro ⟨above, masked⟩
      rw [mask_bit short] at masked
      have reached := of_decide_eq_true masked
      unfold shift at above reached
      omega
    case isFalse => rfl

/-! ## One byte after the other -/

/-- A byte is set as a lane of one byte. -/
theorem setByte_eq (inside : index < size) (byte : UInt8) :
    cell.setByte index inside byte = cell.setLane index 1 inside (byte.toBitVec.zeroExtend 64) := by
  have fits : byte.toBitVec.zeroExtend 64 &&& mask 1 = byte.toBitVec.zeroExtend 64 := by
    apply BitVec.eq_of_getLsbD_eq
    intro bit low
    rw [BitVec.getLsbD_and, mask_bit (by decide), BitVec.zeroExtend, BitVec.getLsbD_setWidth]
    by_cases small : bit < 8
    · rw [decide_eq_true (show bit < 1 * 8 from small), Bool.and_true]
    · rw [BitVec.getLsbD_of_ge _ bit (Nat.not_lt.mp small), Bool.and_false, Bool.false_and]
  rw [setByte, setLane, fits]
  rfl

theorem unpacked_setByte (inside : index < size) (byte : UInt8) :
    (cell.setByte index inside byte).unpacked =
      ⟨cell.unpacked.bytes.setIfInBounds index byte⟩ := by
  have low : (byte.toBitVec.zeroExtend 64).setWidth 8 = byte.toBitVec := by
    apply BitVec.eq_of_getLsbD_eq
    intro bit low
    rw [BitVec.getLsbD_setWidth, BitVec.zeroExtend, BitVec.getLsbD_setWidth, decide_eq_true low,
      decide_eq_true (show bit < 64 by omega), Bool.true_and, Bool.true_and]
  have one : Cell.reach index 1 = 1 := by
    rw [Cell.reach_of_isLane (Cell.isLane_one index)]
    omega
  have stored : Word.toBytes (byte.toBitVec.zeroExtend 64) (Cell.reach index 1) = [byte] := by
    rw [one, Word.toBytes, low]
    rfl
  rw [setByte_eq, unpacked_setLane (Cell.isLane_one index) inside, Cell.withInteger, stored]
  rfl

/-- Bytes gathered one by one make the word of the slice. -/
theorem gather_eq (length : Nat) : ∀ (offset : Nat) (inside : offset + length ≤ size),
    cell.gather offset length inside =
      Word.ofBytes (Bytes.slice cell.unpacked.bytes offset length) := by
  induction length with
  | zero =>
      intro offset _
      rw [gather, Bytes.slice_zero]
      rfl
  | succ length continues =>
      intro offset inside
      rw [gather, continues, Bytes.slice_succ (unpacked_getElem? (by omega)), Word.ofBytes]

/-- A word scattered byte by byte overwrites the slice. -/
theorem unpacked_scatter (length : Nat) :
    ∀ (cell : PackedCell size) (offset : Nat) (inside : offset + length ≤ size) (value : Word),
      (cell.scatter offset length inside value).unpacked =
        ⟨Bytes.overwrite cell.unpacked.bytes offset (value.toBytes length)⟩ := by
  induction length with
  | zero => exact fun _ _ _ _ => rfl
  | succ length continues =>
      intro cell offset inside value
      rw [scatter, continues, unpacked_setByte, Word.toBytes, Bytes.overwrite]

/-- The word that was looked up last is still there. -/
def Recalls (cell : PackedCell size) (last? : Option (Nat × Word)) : Prop :=
  ∀ last word, last? = some (last, word) →
    ∀ index, (inside : index < size) → index / 8 = last → word = cell.word index inside

theorem Recalls.recall_eq {last? : Option (Nat × Word)} (recalls : cell.Recalls last?)
    (inside : index < size) : cell.fetch index inside last? = cell.word index inside := by
  rcases last? with _ | ⟨last, word⟩
  · rfl
  · rw [fetch]
    split
    case isTrue same => exact recalls last word rfl index inside same.symm
    case isFalse => rfl

theorem recalls_word (inside : index < size) :
    cell.Recalls (some (index / 8, cell.word index inside)) := by
  rintro last word ⟨⟩ other there same
  exact (word_congr inside there same).symm

/-- A read that keeps the last word it fetched answers the slice. -/
theorem readFrom_eq (length : Nat) :
    ∀ (offset : Nat) (inside : offset + length ≤ size) {last? : Option (Nat × Word)},
      cell.Recalls last? →
      cell.readFrom offset length inside last? =
        Bytes.slice cell.unpacked.bytes offset length := by
  induction length with
  | zero =>
      intro offset _ last? _
      rw [readFrom, Bytes.slice_zero]
  | succ length continues =>
      intro offset inside last? recalls
      have within : offset < size := by omega
      rw [readFrom, recalls.recall_eq within, continues _ _ (recalls_word within),
        Bytes.slice_succ (unpacked_getElem? within)]
      rfl

/-- A whole word is a lane of eight bytes. -/
theorem setWord_eq (whole : offset % 8 = 0) (inside : offset < size) (value : Word) :
    cell.setWord offset inside value = cell.setLane offset 8 inside value := by
  have unshifted : shift offset = 0 := by
    rw [shift, whole]
  rw [setLane, unshifted, splice_whole]

theorem unpacked_setWord (whole : offset % 8 = 0) (inside : offset + 8 ≤ size) (value : Word) :
    (cell.setWord offset (by omega) value).unpacked =
      ⟨Bytes.overwrite cell.unpacked.bytes offset (value.toBytes 8)⟩ := by
  have lane : Cell.isLane offset 8 := Cell.isLane_iff.mpr ⟨by decide, by decide, whole⟩
  have full : Cell.reach offset 8 = 8 := by
    rw [Cell.reach_of_isLane lane]
    omega
  rw [setWord_eq whole, unpacked_setLane lane inside, Cell.withInteger, full]

/-- A write word by word overwrites the slice. -/
theorem unpacked_writeFrom (cell : PackedCell size) (offset : Nat) (data : List UInt8)
    (inside : offset + data.length ≤ size) :
    (cell.writeFrom offset data inside).unpacked =
      ⟨Bytes.overwrite cell.unpacked.bytes offset data⟩ := by
  fun_induction writeFrom with
  | case1 cell offset data inside whole continues =>
      have eight : (data.take 8).length = 8 := List.length_take_of_le whole.2
      have back := Word.toBytes_ofBytes (Nat.le_of_eq eight)
      rw [eight] at back
      have joined := Bytes.overwrite_append cell.unpacked.bytes offset (data.take 8) (data.drop 8)
      rw [List.take_append_drop, eight] at joined
      rw [continues, unpacked_setWord whole.1 (by omega), back, joined]
  | case2 => rfl
  | case3 cell offset byte rest _ _ _ continues =>
      rw [continues, unpacked_setByte, Bytes.overwrite]

/-! ## Every access -/

/-- A packed cell loads as its bytes do. -/
theorem load?_eq (cell : PackedCell size) (offset length : Nat) :
    cell.load? offset length = cell.unpacked.load? offset length := by
  rw [load?, Cell.load?_eq_ite, unpacked_cellSize]
  split
  case isTrue inside =>
    split
    case isTrue lane => rw [lane_eq lane inside.1]
    case isFalse unaligned =>
      rw [gather_eq, Cell.integerAt, Cell.reach_of_not_isLane unaligned]
  case isFalse => rfl

/-- A packed cell stores as its bytes do. -/
theorem store?_eq (cell : PackedCell size) (offset length : Nat) (value : Word) :
    (cell.store? offset length value).map unpacked =
      cell.unpacked.store? offset length value := by
  rw [store?, Cell.store?_eq_ite, unpacked_cellSize]
  split
  case isTrue inside =>
    split
    case isTrue lane =>
      have whole (eight : length = 8) : offset % 8 = 0 := eight ▸ (Cell.isLane_iff.mp lane).2.2
      have set : (if length = 8 then some (cell.setWord offset (lane_inside lane inside.1) value)
          else some (cell.setLane offset length (lane_inside lane inside.1) value)) =
          some (cell.setLane offset length (lane_inside lane inside.1) value) := by
        split
        case isTrue eight =>
          subst eight
          rw [setWord_eq (whole rfl)]
        case isFalse => rfl
      rw [set, Option.map_some, unpacked_setLane lane inside.1]
    case isFalse unaligned =>
      rw [Option.map_some, unpacked_scatter, Cell.withInteger, Cell.reach_of_not_isLane unaligned]
  case isFalse => rfl

/-- A packed cell carries out an atomic operation as its bytes do. -/
theorem update?_eq (cell : PackedCell size) (offset length : Nat) (change : Word → Word) :
    (cell.update? offset length change).map (Prod.map id unpacked) =
      cell.unpacked.update? offset length change := by
  rw [update?, Cell.update?_eq_ite, unpacked_cellSize]
  split
  case isTrue inside =>
    dsimp only
    rw [Option.map_some, Prod.map_apply, id_eq, unpacked_setLane inside.2 inside.1,
      lane_eq inside.2 inside.1]
  case isFalse => rfl

theorem recalls_none : cell.Recalls none := by
  rintro _ _ ⟨⟩

/-- A packed cell is read as its bytes are. -/
theorem read?_eq (cell : PackedCell size) (offset length : Nat) :
    cell.read? offset length = cell.unpacked.read? offset length := by
  rw [read?, Cell.read?_eq_ite, unpacked_cellSize]
  split
  case isTrue inside => rw [readFrom_eq length offset inside recalls_none]
  case isFalse => rfl

/-- A packed cell is written as its bytes are. -/
theorem write?_eq (cell : PackedCell size) (offset : Nat) (data : List UInt8) :
    (cell.write? offset data).map unpacked = cell.unpacked.write? offset data := by
  rw [write?, Cell.write?_eq_ite, unpacked_cellSize]
  split
  case isTrue inside => rw [Option.map_some, unpacked_writeFrom]
  case isFalse => rfl

theorem toBytes_eq (cell : PackedCell size) : cell.toBytes = cell.unpacked.bytes.toList := by
  rw [toBytes, readFrom_eq size 0 _ recalls_none, Bytes.slice, Nat.zero_add,
    Array.extract_eq_self_of_le (Nat.le_of_eq unpacked_size)]

theorem unpacked_zeroed (size : Nat) : (zeroed size).unpacked = Cell.zeroed size := by
  refine unpacked_eq Array.size_replicate fun index inside => ?_
  rw [Array.getElem?_replicate, if_pos inside]
  refine congrArg some (UInt8.toBitVec_inj.mp (BitVec.eq_of_getLsbD_eq fun bit low => ?_))
  have empty : (zeroed size).word index inside = 0 := Vector.getElem_replicate _
  have clear : UInt8.toBitVec 0 = 0#8 := rfl
  rw [byte_bit inside low, empty, clear, BitVec.getLsbD_zero]
  exact BitVec.getLsbD_zero.symm

theorem unpacked_ofBytes (bytes : Bytes) : (ofBytes bytes).unpacked = ⟨bytes⟩ := by
  rw [ofBytes, unpacked_writeFrom, unpacked_zeroed]
  refine congrArg Cell.mk (Array.ext_getElem? fun index => ?_)
  rw [Bytes.overwrite_getElem?, Array.length_toList, Nat.zero_add, Nat.sub_zero,
    Array.getElem?_toList, Cell.zeroed, Array.size_replicate]
  split
  case isTrue => rfl
  case isFalse outside =>
    have beyond : bytes.size ≤ index := by omega
    rw [Array.getElem?_eq_none beyond, Array.getElem?_replicate, if_neg (Nat.not_lt.mpr beyond)]

end PackedCell

/-! ## Series of calls -/

/-- A call on a cell. -/
inductive CellCall where
  | load (offset length : Nat)
  | store (offset length : Nat) (value : Word)
  | update (offset length : Nat) (change : Word → Word)
  | read (offset length : Nat)
  | write (offset : Nat) (data : List UInt8)
  | toBytes

/-- What a call on a cell answers. -/
inductive CellAnswer where
  | integer (found? : Option Word)
  | done (accepted : Bool)
  | bytes (found? : Option (List UInt8))
  deriving DecidableEq, Repr

namespace CellCall

variable {State State' : Type}

/-- A call that gives a new state, or refuses. -/
def ofChanged? (state : State) : Option State → CellAnswer × State
  | some changed => (.done true, changed)
  | none => (.done false, state)

/-- A call that gives an integer and a new state, or refuses. -/
def ofUpdated? (state : State) : Option (Word × State) → CellAnswer × State
  | some (old, changed) => (.integer (some old), changed)
  | none => (.integer none, state)

/-- The answer of a cell that is kept as bytes, and the cell after the call. -/
def onCell : CellCall → Cell → CellAnswer × Cell
  | load offset length, cell => (.integer (cell.load? offset length), cell)
  | store offset length value, cell => ofChanged? cell (cell.store? offset length value)
  | update offset length change, cell => ofUpdated? cell (cell.update? offset length change)
  | read offset length, cell => (.bytes (cell.read? offset length), cell)
  | write offset data, cell => ofChanged? cell (cell.write? offset data)
  | toBytes, cell => (.bytes (some cell.bytes.toList), cell)

/-- The answer of a cell that is kept as words, and the cell after the call. -/
def onPacked {size : Nat} : CellCall → PackedCell size → CellAnswer × PackedCell size
  | load offset length, cell => (.integer (cell.load? offset length), cell)
  | store offset length value, cell => ofChanged? cell (cell.store? offset length value)
  | update offset length change, cell => ofUpdated? cell (cell.update? offset length change)
  | read offset length, cell => (.bytes (cell.read? offset length), cell)
  | write offset data, cell => ofChanged? cell (cell.write? offset data)
  | toBytes, cell => (.bytes (some cell.toBytes), cell)

/-- What a plain byte string answers.  An integer stands for the bytes that are addressed, all of
them; what does not lie inside is refused. -/
def onBytes : CellCall → Bytes → CellAnswer × Bytes
  | load offset length, bytes =>
    if offset + length ≤ bytes.size ∧ length ≤ 8 then
      (.integer (some (Word.ofBytes (bytes.slice offset length))), bytes)
    else (.integer none, bytes)
  | store offset length value, bytes =>
    if offset + length ≤ bytes.size ∧ length ≤ 8 then
      (.done true, bytes.overwrite offset (value.toBytes length))
    else (.done false, bytes)
  | update offset length change, bytes =>
    if offset + length ≤ bytes.size ∧ Cell.isLane offset length then
      let old := Word.ofBytes (bytes.slice offset length)
      (.integer (some old), bytes.overwrite offset ((change old).toBytes length))
    else (.integer none, bytes)
  | read offset length, bytes => (.bytes (bytes.read? offset length), bytes)
  | write offset data, bytes => ofChanged? bytes (bytes.write? offset data)
  | toBytes, bytes => (.bytes (some bytes.toList), bytes)

/-- The call is one on a lane that lies in a value of this size but goes past the end of its
word. -/
def IsTorn (size : Nat) : CellCall → Prop
  | load offset length | store offset length _ | update offset length _ =>
    Cell.isLane offset length ∧ offset + length ≤ size ∧ 8 < offset % 8 + length
  | read .. | write .. | toBytes => False

instance decidableIsTorn (size : Nat) : (call : CellCall) → Decidable (call.IsTorn size)
  | load .. | store .. | update .. => inferInstanceAs (Decidable (_ ∧ _ ∧ _))
  | read .. | write .. | toBytes => inferInstanceAs (Decidable False)

/-- A packed cell answers as the cell that it is unpacked to. -/
theorem onPacked_eq {size : Nat} (call : CellCall) (cell : PackedCell size) :
    Prod.map id PackedCell.unpacked (call.onPacked cell) = call.onCell cell.unpacked := by
  have changed (state : PackedCell size) (changed? : Option (PackedCell size)) :
      Prod.map id PackedCell.unpacked (ofChanged? state changed?) =
        ofChanged? state.unpacked (changed?.map PackedCell.unpacked) := by
    cases changed? <;> rfl
  have updated (state : PackedCell size) (updated? : Option (Word × PackedCell size)) :
      Prod.map id PackedCell.unpacked (ofUpdated? state updated?) =
        ofUpdated? state.unpacked (updated?.map (Prod.map id PackedCell.unpacked)) := by
    cases updated? <;> rfl
  cases call with
  | load offset length => rw [onPacked, onCell, cell.load?_eq]; rfl
  | store offset length value => rw [onPacked, onCell, changed, cell.store?_eq]
  | update offset length change => rw [onPacked, onCell, updated, cell.update?_eq]
  | read offset length => rw [onPacked, onCell, cell.read?_eq]; rfl
  | write offset data => rw [onPacked, onCell, changed, cell.write?_eq]
  | toBytes => rw [onPacked, onCell, cell.toBytes_eq]; rfl

/-- An access that is not torn reaches all its bytes. -/
theorem reach_of_whole {offset length size : Nat} (inside : offset + length ≤ size)
    (whole : ¬ (Cell.isLane offset length ∧ offset + length ≤ size ∧ 8 < offset % 8 + length)) :
    Cell.reach offset length = length := by
  by_cases lane : Cell.isLane offset length
  · rw [Cell.reach_of_isLane lane]
    have fits : ¬ 8 < offset % 8 + length := fun torn => whole ⟨lane, inside, torn⟩
    omega
  · exact Cell.reach_of_not_isLane lane

/-- A cell answers as its bytes do, unless the call is on a torn lane. -/
theorem onCell_eq (call : CellCall) (bytes : Bytes) (whole : ¬ call.IsTorn bytes.size) :
    call.onCell ⟨bytes⟩ = Prod.map id Cell.mk (call.onBytes bytes) := by
  have sized : Cell.size ⟨bytes⟩ = bytes.size := rfl
  cases call with
  | load offset length =>
      rw [onCell, onBytes, Cell.load?_eq_ite, sized]
      split
      case isTrue inside =>
        rw [Cell.integerAt, reach_of_whole inside.1 whole]
        rfl
      case isFalse => rfl
  | store offset length value =>
      rw [onCell, onBytes, Cell.store?_eq_ite, sized]
      split
      case isTrue inside =>
        rw [Cell.withInteger, reach_of_whole inside.1 whole]
        rfl
      case isFalse => rfl
  | update offset length change =>
      rw [onCell, onBytes, Cell.update?_eq_ite, sized]
      split
      case isTrue inside =>
        rw [Cell.withInteger, Cell.integerAt, reach_of_whole inside.1 whole]
        rfl
      case isFalse => rfl
  | read offset length => rfl
  | write offset data =>
      rw [onCell, onBytes, Cell.write?]
      cases Bytes.write? bytes offset data <;> rfl
  | toBytes => rfl

theorem onBytes_size (call : CellCall) (bytes : Bytes) :
    (call.onBytes bytes).2.size = bytes.size := by
  cases call with
  | load =>
      rw [onBytes]
      split <;> rfl
  | store | update =>
      rw [onBytes]
      split
      · exact Bytes.overwrite_size _ _ _
      · rfl
  | read | toBytes => rfl
  | write offset data =>
      rw [onBytes, Bytes.write?]
      split
      · exact Bytes.overwrite_size _ _ _
      · rfl

/-- A packed cell answers every series of calls as the cell that it is unpacked to. -/
theorem answerAll_onPacked {size : Nat} (calls : List CellCall) (cell : PackedCell size) :
    (answerAll onPacked calls cell).1 = (answerAll onCell calls cell.unpacked).1 ∧
      (answerAll onPacked calls cell).2.unpacked = (answerAll onCell calls cell.unpacked).2 := by
  have alike : ∀ call (packed : PackedCell size) kept, packed.unpacked = kept →
      (onPacked call packed).1 = (onCell call kept).1 ∧
        (onPacked call packed).2.unpacked = (onCell call kept).2 := by
    rintro call packed _ rfl
    have same := call.onPacked_eq packed
    exact ⟨congrArg Prod.fst same, congrArg Prod.snd same⟩
  exact answerAll_simulates alike calls rfl

/-- A cell answers every series of calls without torn lanes as its bytes do. -/
theorem answerAll_onCell (calls : List CellCall) (bytes : Bytes)
    (whole : ∀ call ∈ calls, ¬ call.IsTorn bytes.size) :
    (answerAll onCell calls ⟨bytes⟩).1 = (answerAll onBytes calls bytes).1 ∧
      (answerAll onCell calls ⟨bytes⟩).2.bytes = (answerAll onBytes calls bytes).2 := by
  -- Calls keep the size, on which it depends what is torn.
  have alike : ∀ call ∈ calls, ∀ (kept : Cell) (plain : Bytes),
      kept.bytes = plain ∧ plain.size = bytes.size →
      (onCell call kept).1 = (onBytes call plain).1 ∧
        (onCell call kept).2.bytes = (onBytes call plain).2 ∧
          (onBytes call plain).2.size = bytes.size := by
    rintro call listed kept _ ⟨rfl, sized⟩
    have same := call.onCell_eq kept.bytes (sized.symm ▸ whole call listed)
    exact ⟨congrArg Prod.fst same, congrArg (fun ended => Cell.bytes ended.2) same,
      (call.onBytes_size kept.bytes).trans sized⟩
  have both := answerAll_simulates_of_mem calls alike ⟨rfl, rfl⟩
  exact ⟨both.1, both.2.1⟩

end CellCall

/-- Packed cells start out as zeros, or as the bytes that they are made of.  One answers every
series of calls as the cell that it is unpacked to, and as a plain byte string does if no lane is
torn. -/
theorem PackedCell.answers_as_bytes {size : Nat} (cell : PackedCell size) (calls : List CellCall) :
    (zeroed size).unpacked.bytes = Array.replicate size 0 ∧
    (∀ bytes, (ofBytes bytes).unpacked.bytes = bytes) ∧
    (answerAll CellCall.onPacked calls cell).1 =
      (answerAll CellCall.onCell calls cell.unpacked).1 ∧
    (answerAll CellCall.onPacked calls cell).2.unpacked =
      (answerAll CellCall.onCell calls cell.unpacked).2 ∧
    ((∀ call ∈ calls, ¬ call.IsTorn size) →
      (answerAll CellCall.onPacked calls cell).1 =
        (answerAll CellCall.onBytes calls cell.unpacked.bytes).1 ∧
      (answerAll CellCall.onPacked calls cell).2.unpacked.bytes =
        (answerAll CellCall.onBytes calls cell.unpacked.bytes).2) := by
  have unpacks := CellCall.answerAll_onPacked calls cell
  refine ⟨congrArg Cell.bytes (unpacked_zeroed size),
    fun bytes => congrArg Cell.bytes (unpacked_ofBytes bytes), unpacks.1, unpacks.2,
    fun whole => ?_⟩
  have sized : cell.unpacked.bytes.size = size := unpacked_size
  have plain := CellCall.answerAll_onCell calls cell.unpacked.bytes (sized.symm ▸ whole)
  exact ⟨unpacks.1.trans plain.1, (congrArg Cell.bytes unpacks.2).trans plain.2⟩

/-- Twelve bytes are stored into and loaded from at an odd place, next to a lane that is updated. -/
theorem PackedCell.answers_as_bytes_twelve :
    let calls : List CellCall :=
      [.store 3 4 0xdeadbeef, .load 3 4, .update 8 4 (· + 7), .read 2 10, .store 9 4 1]
    (∀ call ∈ calls, ¬ call.IsTorn 12) ∧
    (answerAll CellCall.onPacked calls (zeroed 12)).1 =
      [.done true, .integer (some 0xdeadbeef), .integer (some 0),
        .bytes (some [0, 0xef, 0xbe, 0xad, 0xde, 0, 7, 0, 0, 0]), .done false] := by
  intro calls
  have whole : ∀ call ∈ calls, ¬ call.IsTorn 12 := by decide
  refine ⟨whole, ((answers_as_bytes (zeroed 12) calls).2.2.2.2 whole).1.trans ?_⟩
  rw [(answers_as_bytes (zeroed 12) calls).1]
  decide

/-- A load of three bytes at a multiple of three that go past the end of a word misses the last one,
and a store there leaves it as it was. -/
theorem PackedCell.torn_lane_misses :
    let bytes : Bytes := #[1, 2, 3, 4, 5, 6, 7, 8, 9, 10]
    let calls : List CellCall := [.load 6 3, .store 6 3 0xffffff, .toBytes]
    (answerAll CellCall.onPacked calls (ofBytes bytes)).1 =
      [.integer (some 0x0807), .done true,
        .bytes (some [1, 2, 3, 4, 5, 6, 0xff, 0xff, 9, 10])] ∧
    (answerAll CellCall.onBytes calls bytes).1 =
      [.integer (some 0x090807), .done true,
        .bytes (some [1, 2, 3, 4, 5, 6, 0xff, 0xff, 0xff, 10])] := by
  intro bytes calls
  rw [(CellCall.answerAll_onPacked calls (ofBytes bytes)).1, unpacked_ofBytes]
  decide

end PacketFilter
