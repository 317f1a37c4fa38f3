import Mathlib.Data.BitVec
import PacketFilter.Machine.Memory
import PacketFilter.Proofs.Word

/-!
# Addresses as numbers

An address is its region times `2 ^ 32` plus its offset.  A pointer that is
moved by a fixed and by a variable part, without leaving its region, keeps the
region and has the two parts added to its offset.
-/

namespace PacketFilter.RegionAddress

/-- The region fills the high half of the address and the offset the low one. -/
theorem toNat_make (region offset : Nat) :
    (make region offset).toNat = region % 2 ^ 32 * 2 ^ 32 + offset % 2 ^ 32 := by
  have short := Nat.mod_lt offset (Nat.two_pow_pos 32)
  rw [make, BitVec.toNat_append, BitVec.toNat_ofNat, BitVec.toNat_ofNat,
    ← Nat.shiftLeft_add_eq_or_of_lt short, Nat.shiftLeft_eq]

theorem region_eq_div (address : Word) : region address = address.toNat / 2 ^ 32 := by
  rw [region, BitVec.toNat_ushiftRight, Nat.shiftRight_eq_div_pow]

theorem offset_eq_mod (address : Word) : offset address = address.toNat % 2 ^ 32 := by
  rw [offset, Word.toNat_low32]

/-- The address of a pointer moved without a wrap. -/
theorem toNat_moved
    {base change : Word} {fixed : Int} {position : Nat}
    (value : (base.toNat : Int) + fixed + change.toNat = position) (short : position < 2 ^ 64) :
    (base + BitVec.ofInt 64 fixed + change).toNat = position := by
  have baseBound := base.isLt
  have changeBound := change.isLt
  rw [BitVec.toNat_add, BitVec.toNat_add, BitVec.toNat_ofInt]
  omega

end PacketFilter.RegionAddress
