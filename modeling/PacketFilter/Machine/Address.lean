import PacketFilter.Word

/-!
# Addresses

What a running program uses as an address: the number of a region in the high
half of a word and an offset into the region in the low half.
-/

namespace PacketFilter.RegionAddress

/-- The region that holds the context. -/
def context : Nat := 1

/-- The region that holds the packet. -/
def packet : Nat := 2

/-- The region that holds the stack. -/
def stack : Nat := 3

/-- The first of the regions that are handed out during a run. -/
def firstDynamic : Nat := 4

/-- Not a region: what would be the offset is the number of one of the program's maps. -/
def mapHandle : Nat := 0xffffffff

/-- The address of an offset in a region. -/
def make (region offset : Nat) : Word :=
  BitVec.ofNat 32 region ++ BitVec.ofNat 32 offset

/-- The number of the region, in the high half. -/
def region (address : Word) : Nat :=
  (address >>> 32).toNat

/-- The place in the region, in the low half. -/
def offset (address : Word) : Nat :=
  address.low32.toNat

end PacketFilter.RegionAddress
