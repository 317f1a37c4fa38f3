import Mathlib.Data.BitVec
import PacketFilter.Abstract.Stack
import PacketFilter.Proofs.Word

/-!
# Tracked frames

What storing does to the tracked bytes of a frame.  A register that is spilled
fills one aligned slot; any other store leaves its content on the bytes it
touches, and of the slots it touches it keeps no register, so that elsewhere
at most a byte of a spilled register has become plain data.
-/

namespace PacketFilter

theorem Word.wrapSigned_of_range
    {number : Int}
    (above : -2 ^ 63 ≤ number) (below : number < 2 ^ 63) :
    Word.wrapSigned number = number := by
  rw [Word.wrapSigned, BitVec.toInt_ofInt]
  apply Int.bmod_eq_of_le <;> omega

namespace StackSlot

/-- A slot that is broken up holds no spilled value. -/
theorem breakUp_spill (slot : StackSlot) : slot.breakUp.spill? = none := by
  unfold breakUp
  split
  case h_1 none => exact none
  case h_2 => rfl

/-- Breaking a register up turns its bytes into data. -/
theorem breakUp_bytes (slot : StackSlot) (index : Nat) :
    slot.breakUp.bytes[index]? = slot.bytes[index]? ∨
      slot.bytes[index]? = some .spilled ∧ slot.breakUp.bytes[index]? = some .data := by
  unfold breakUp
  split
  case h_1 => exact .inl rfl
  case h_2 =>
    simp only [Vector.getElem?_map]
    cases slot.bytes[index]? with
    | none => exact .inl rfl
    | some byte =>
        by_cases spilled : byte = .spilled
        · exact .inr ⟨congrArg some spilled, by simp [spilled]⟩
        · exact .inl (by simp [spilled])

end StackSlot

namespace StackFrame

/-- One slot replaced. -/
theorem slotOf_replaced
    (frame : StackFrame) (slot : StackSlot) {byte : Nat} (inside : byte < size) (other : Nat) :
    slotOf ⟨frame.slots.setIfInBounds (byte / 8) slot⟩ other =
      if other / 8 = byte / 8 then slot else frame.slotOf other := by
  have short : byte / 8 < 64 := by
    unfold size at inside
    omega
  rw [slotOf, Vector.getElem?_setIfInBounds, slotOf]
  by_cases same : other / 8 = byte / 8
  · rw [if_pos same.symm, if_pos short, if_pos same, Option.getD_some]
  · rw [if_neg (Ne.symm same), if_neg same]

/-- A spill fills the slot it goes to and leaves every other one alone. -/
theorem slotOf_spill
    (frame : StackFrame) (value : AbstractValue) {first : Nat} (inside : first < size)
    (other : Nat) :
    (frame.spill first value).slotOf other =
      if other / 8 = first / 8 then ⟨Vector.replicate 8 .spilled, some value⟩
      else frame.slotOf other :=
  slotOf_replaced frame _ inside other

/-- A spill marks the eight bytes of its slot and leaves the others alone. -/
theorem byteAt_spill
    (frame : StackFrame) (value : AbstractValue) {first : Nat} (inside : first < size)
    (other : Nat) :
    (frame.spill first value).byteAt other =
      if other / 8 = first / 8 then .spilled else frame.byteAt other := by
  rw [byteAt, slotOf_spill frame value inside]
  split
  case isTrue =>
    simp [Nat.mod_lt other (by decide : 0 < 8)]
  case isFalse => rfl

/-- A byte that is set breaks up its own slot, and leaves every other one alone. -/
theorem slotOf_setByte
    (frame : StackFrame) (content : StackByte) {byte : Nat} (inside : byte < size) (other : Nat) :
    (frame.setByte content byte).slotOf other =
      if other / 8 = byte / 8 then
        ⟨(frame.slotOf byte).breakUp.bytes.setIfInBounds (byte % 8) content, none⟩
      else frame.slotOf other := by
  have broken := StackSlot.breakUp_spill (frame.slotOf byte)
  rw [setByte, slotOf_replaced frame _ inside other]
  simp only [broken]

theorem slotOf_fresh (byte : Nat) : fresh.slotOf byte = default := by
  rw [slotOf, fresh, Vector.getElem?_replicate]
  split <;> rfl

theorem byteAt_fresh (byte : Nat) : fresh.byteAt byte = .unwritten := by
  have short : byte % 8 < 8 := Nat.mod_lt byte (by decide)
  rw [byteAt, slotOf_fresh]
  show ((Vector.replicate 8 StackByte.unwritten)[byte % 8]?).getD .unwritten = .unwritten
  rw [Vector.getElem?_replicate, if_pos short]
  rfl

theorem slotOf_congr (frame : StackFrame) {byte other : Nat} (same : other / 8 = byte / 8) :
    frame.slotOf other = frame.slotOf byte := by
  rw [slotOf, slotOf, same]

theorem byteAt_setByte_self
    (frame : StackFrame) (content : StackByte) {byte : Nat} (inside : byte < size) :
    (frame.setByte content byte).byteAt byte = content := by
  have short : byte % 8 < 8 := Nat.mod_lt byte (by decide)
  rw [byteAt, slotOf_setByte frame content inside, if_pos rfl, Vector.getElem?_setIfInBounds,
    if_pos rfl, if_pos short, Option.getD_some]

/-- The other bytes keep what is known of them, except that a register may have been broken up. -/
theorem byteAt_setByte_other
    (frame : StackFrame) (content : StackByte) {byte other : Nat} (inside : byte < size)
    (different : other ≠ byte) :
    (frame.setByte content byte).byteAt other = frame.byteAt other ∨
      frame.byteAt other = .spilled ∧ (frame.setByte content byte).byteAt other = .data := by
  rw [byteAt, slotOf_setByte frame content inside, byteAt]
  by_cases same : other / 8 = byte / 8
  · have apart : byte % 8 ≠ other % 8 := by omega
    rw [if_pos same, Vector.getElem?_setIfInBounds, if_neg apart, slotOf_congr frame same]
    rcases (frame.slotOf byte).breakUp_bytes (other % 8) with kept | ⟨spilled, data⟩
    · exact .inl (by rw [kept])
    · exact .inr ⟨by rw [spilled, Option.getD_some], by rw [data, Option.getD_some]⟩
  · rw [if_neg same]
    exact .inl rfl

/-! ## Filling -/

/-- The touched bytes have the content, and no touched slot holds a register. -/
structure Filled (before after : StackFrame) (touched : Nat → Prop) (content : StackByte) :
    Prop where
  inside : ∀ byte < size, touched byte → after.byteAt byte = content
  outside : ∀ byte < size, ¬ touched byte →
    after.byteAt byte = before.byteAt byte ∨
      before.byteAt byte = .spilled ∧ after.byteAt byte = .data
  spills : ∀ byte < size,
    (after.slotOf byte).spill? = none ∨
      (after.slotOf byte = before.slotOf byte ∧
        ∀ other < size, other / 8 = byte / 8 → ¬ touched other)

theorem setBytes_filled
    {content : StackByte} (plain : content ≠ .spilled) (bytes : List Nat) :
    ∀ frame : StackFrame, (∀ byte ∈ bytes, byte < size) →
      frame.Filled (bytes.foldl (fun frame byte => frame.setByte content byte) frame)
        (· ∈ bytes) content := by
  induction bytes with
  | nil =>
      intro frame _
      refine ⟨fun byte _ touched => ?_, fun byte _ _ => .inl rfl, fun byte _ => .inr ⟨rfl, ?_⟩⟩
      · cases touched
      · intro other _ _ touched
        cases touched
  | cons first rest hypothesis =>
      intro frame short
      have inside : first < size := short first List.mem_cons_self
      have later := hypothesis (frame.setByte content first)
        fun byte found => short byte (List.mem_cons_of_mem first found)
      refine ⟨fun byte small touched => ?_, fun byte small untouched => ?_, fun byte small => ?_⟩
      · by_cases found : byte ∈ rest
        · exact later.inside byte small found
        · have same : byte = first := (List.mem_cons.mp touched).resolve_right found
          subst same
          have stored := byteAt_setByte_self frame content inside
          rcases later.outside byte small found with kept | ⟨spilled, _⟩
          · exact kept.trans stored
          · exact absurd (stored.symm.trans spilled) plain
      · rw [List.mem_cons, not_or] at untouched
        have earlier := byteAt_setByte_other frame content inside untouched.1
        rcases later.outside byte small untouched.2 with kept | ⟨spilled, data⟩
        · rw [List.foldl_cons, kept]
          exact earlier
        · rcases earlier with same | ⟨_, data'⟩
          · exact .inr ⟨same.symm.trans spilled, data⟩
          · rw [data'] at spilled
            cases spilled
      · rcases later.spills byte small with none | ⟨kept, untouched⟩
        · exact .inl none
        · have slot := slotOf_setByte frame content inside byte
          by_cases same : byte / 8 = first / 8
          · rw [if_pos same] at slot
            rw [List.foldl_cons, kept, slot]
            exact .inl rfl
          · rw [if_neg same] at slot
            refine .inr ⟨kept.trans slot, fun other otherSmall near touched => ?_⟩
            rcases List.mem_cons.mp touched with rfl | found
            · exact same near.symm
            · exact untouched other otherSmall near found

/-! ## Accesses -/

/-- What an access in the frame is known to satisfy. -/
structure Inside (offset : Int) (length first : Nat) : Prop where
  offset : offset = (first : Int) - size
  start : first < size
  nonempty : 0 < length
  stop : first + length ≤ size

/-- An offset determines the place in the frame that it names. -/
theorem Inside.unique
    {offset : Int} {length length' first first' : Nat}
    (inside : Inside offset length first) (inside' : Inside offset length' first') :
    first = first' := by
  have place := inside.offset
  have place' := inside'.offset
  omega

theorem inside_of_firstByte
    {offset : Int} {length first : Nat}
    (found : firstByte? offset length = some first) (short : length < 2 ^ 62) :
    Inside offset length first := by
  simp only [firstByte?] at found
  split at found
  case isTrue => cases found
  case isFalse fits =>
    rcases not_or.mp fits with ⟨negative, fits⟩
    rcases not_or.mp fits with ⟨start, fits⟩
    rcases not_or.mp fits with ⟨stop, nonempty⟩
    cases found
    have whole : (size : Int) = 512 := rfl
    rw [Word.wrapSigned_of_range (by omega) (by omega)] at stop
    constructor
    · omega
    · omega
    · omega
    · omega

theorem mem_bytesFrom
    {first length byte : Nat}
    (stop : first + length ≤ size) :
    byte ∈ bytesFrom first length ↔ first ≤ byte ∧ byte < first + length := by
  have value : (BitVec.ofNat 64 (first + length)).toNat = first + length := by
    unfold size at stop
    rw [BitVec.toNat_ofNat, Nat.mod_eq_of_lt (by omega)]
  simp only [bytesFrom, value, List.mem_range'_1]
  omega

theorem fill_filled
    {content : StackByte} (plain : content ≠ .spilled) (frame : StackFrame) {first length : Nat}
    (stop : first + length ≤ size) :
    frame.Filled (frame.fill first length content)
      (fun byte => first ≤ byte ∧ byte < first + length) content := by
  have filled := setBytes_filled plain (bytesFrom first length) frame fun byte found =>
    Nat.lt_of_lt_of_le ((mem_bytesFrom stop).mp found).2 stop
  simpa only [mem_bytesFrom stop, fill] using filled

section

variable {frame after : StackFrame} {offset : Int} {length : Nat}

/-- A store either spills a register over a slot of its own or leaves plain bytes, which are zeros
only when zero is stored. -/
theorem write_eq_ok
    {value : AbstractValue}
    (written : frame.write offset length value = .ok after) (short : length < 2 ^ 62) :
    ∃ first, Inside offset length first ∧
      ((length = 8 ∧ first % 8 = 0 ∧ after = frame.spill first value) ∨
        ∃ content : StackByte, content ≠ .unwritten ∧
          (content = .zero → value.constant? = some 0) ∧
            frame.Filled after (fun byte => first ≤ byte ∧ byte < first + length) content) := by
  simp only [write] at written
  split at written
  case h_1 => cases written
  case h_2 first there =>
    have inside := inside_of_firstByte there short
    refine ⟨first, inside, ?_⟩
    split at written
    case isTrue whole =>
      cases written
      rw [isWholeSlot, Bool.and_eq_true, beq_iff_eq, beq_iff_eq] at whole
      exact .inl ⟨whole.1, whole.2, rfl⟩
    case isFalse =>
      split at written
      case isTrue => cases written
      case isFalse =>
        cases written
        by_cases constant : value.constant? = some 0
        · rw [if_pos constant]
          exact .inr ⟨.zero, by decide, fun _ => constant,
            frame.fill_filled (by decide) inside.stop⟩
        · rw [if_neg constant]
          exact .inr ⟨.data, by decide, nofun, frame.fill_filled (by decide) inside.stop⟩

theorem writeData_eq_ok
    (written : frame.writeData offset length = .ok after) (short : length < 2 ^ 62) :
    ∃ first, Inside offset length first ∧
      frame.Filled after (fun byte => first ≤ byte ∧ byte < first + length) .data := by
  simp only [writeData] at written
  split at written
  case h_1 => cases written
  case h_2 first there =>
    have inside := inside_of_firstByte there short
    cases written
    exact ⟨first, inside, frame.fill_filled (by decide) inside.stop⟩

/-! ## Spilled registers -/

/-- Where bytes are filled in, nothing is spilled that was not. -/
theorem spill?_of_filled
    {touched : Nat → Prop} {content : StackByte} {byte : Nat} {value : AbstractValue}
    (filled : frame.Filled after touched content) (inside : byte < size)
    (spilled : (after.slotOf byte).spill? = some value) :
    (frame.slotOf byte).spill? = some value := by
  rcases filled.spills byte inside with none | ⟨same, _⟩
  · rw [none] at spilled
    cases spilled
  · rwa [same] at spilled

/-- After a write the frame may hold the value written, and what it held before. -/
theorem spill?_of_write
    {byte : Nat} {value other : AbstractValue}
    (written : frame.write offset length value = .ok after) (short : length < 2 ^ 62)
    (inside : byte < size) (spilled : (after.slotOf byte).spill? = some other) :
    other = value ∨ (frame.slotOf byte).spill? = some other := by
  rcases write_eq_ok written short with ⟨first, place, ⟨_, _, rfl⟩ | ⟨content, _, _, filled⟩⟩
  · rw [frame.slotOf_spill value place.start] at spilled
    split at spilled
    case isTrue =>
      cases spilled
      exact .inl rfl
    case isFalse => exact .inr spilled
  · exact .inr (spill?_of_filled filled inside spilled)

theorem spill?_of_writeData
    {byte : Nat} {value : AbstractValue}
    (written : frame.writeData offset length = .ok after) (short : length < 2 ^ 62)
    (inside : byte < size) (spilled : (after.slotOf byte).spill? = some value) :
    (frame.slotOf byte).spill? = some value := by
  rcases writeData_eq_ok written short with ⟨first, _, filled⟩
  exact spill?_of_filled filled inside spilled

/-- The ways in which the bytes from a place on are loaded: the register spilled there is given
back, or nothing stands against any of the bytes. -/
inductive Reads (frame : StackFrame) (offset : Int) (first length : Nat) :
    AbstractValue → Prop where
  | spilled {value : AbstractValue} (whole : length = 8) (aligned : first % 8 = 0)
      (there : (frame.slotOf first).spill? = some value) : Reads frame offset first length value
  | zeros
      (fine : ∀ byte, first ≤ byte → byte < first + length → frame.loadProblem? offset byte = none)
      (zeros : ∀ byte, first ≤ byte → byte < first + length → frame.byteAt byte = .zero) :
      Reads frame offset first length (.constant 0)
  | data
      (fine : ∀ byte, first ≤ byte → byte < first + length →
        frame.loadProblem? offset byte = none) :
      Reads frame offset first length (.scalar (.ofWidth length))

theorem reads_of_readBytes
    {first : Nat} {value : AbstractValue}
    (found : frame.readBytes offset first length = .ok value) (stop : first + length ≤ size) :
    frame.Reads offset first length value := by
  have listed {byte : Nat} (above : first ≤ byte) (below : byte < first + length) :
      byte ∈ bytesFrom first length :=
    (mem_bytesFrom stop).mpr ⟨above, below⟩
  simp only [readBytes] at found
  split at found
  case h_1 => cases found
  case h_2 clear =>
    have fine (byte : Nat) (above : first ≤ byte) (below : byte < first + length) :
        frame.loadProblem? offset byte = none :=
      List.findSome?_eq_none_iff.mp clear byte (listed above below)
    split at found
    case isTrue zero =>
      cases found
      exact .zeros fine fun byte above below =>
        beq_iff_eq.mp (List.all_eq_true.mp zero byte (listed above below))
    case isFalse =>
      cases found
      exact .data fine

theorem read_eq_ok
    {value : AbstractValue}
    (found : frame.read offset length = .ok value) (short : length < 2 ^ 62) :
    ∃ first, Inside offset length first ∧ frame.Reads offset first length value := by
  simp only [read] at found
  split at found
  case h_1 => cases found
  case h_2 first there =>
    have inside := inside_of_firstByte there short
    refine ⟨first, inside, ?_⟩
    split at found
    case h_1 spilled =>
      cases found
      split at spilled
      case isTrue whole =>
        rw [isWholeSlot, Bool.and_eq_true, beq_iff_eq, beq_iff_eq] at whole
        exact .spilled whole.1 whole.2 spilled
      case isFalse => cases spilled
    case h_2 => exact reads_of_readBytes found inside.stop

theorem checkReadable_eq_ok
    (fine : frame.checkReadable offset length = .ok ()) (short : length < 2 ^ 62) :
    ∃ first, Inside offset length first ∧
      ∀ byte, first ≤ byte → byte < first + length → frame.helperProblem? byte = none := by
  simp only [checkReadable] at fine
  split at fine
  case h_1 => cases fine
  case h_2 first there =>
    have inside := inside_of_firstByte there short
    refine ⟨first, inside, fun byte above below => ?_⟩
    split at fine
    case h_1 => cases fine
    case h_2 none =>
      exact List.findSome?_eq_none_iff.mp none byte
        ((mem_bytesFrom inside.stop).mpr ⟨above, below⟩)

end

end StackFrame

end PacketFilter
