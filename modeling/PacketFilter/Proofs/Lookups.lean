import PacketFilter.Proofs.Headers

/-!
# Looking up from packet programs

The pieces by which packet programs look up keys on the stack, and leave.  A
call leaves nothing to be relied on in the registers of its arguments, so what
is kept in mind across a lookup is what the other registers hold.
-/

namespace PacketFilter

namespace Line

/-- Look up a key on the stack in a map; jump away when there is nothing under it. -/
def lookup (map offset : Int32) (missing : Nat) : List Line :=
  [loadMap 1 map,
    move 2 10,
    compute .add 2 (.immediate offset),
    call .mapLookup,
    branch .equal 0 (.immediate 0) missing]

/-- Look up an index in a map. -/
def lookupIndex (map index : Int32) (missing : Nat) : List Line :=
  store .word 10 (-32) (.immediate index) :: lookup map (-32) missing

def leave (verdict : Verdict) : List Line :=
  [set 0 (Int32.ofNat verdict.code), exit]

end Line

namespace Stage

/-- All that is known is about registers that calls leave alone. -/
def Saved (known : List (RegisterName × Word)) : Prop :=
  ∀ entry ∈ known, 6 ≤ entry.1

theorem Saved.skip
    {known known' : List (RegisterName × Word)} {other : RegisterName} {word : Word}
    (saved : Saved known') (includes : Includes known' known) (early : other < 6) :
    Includes known' ((other, word) :: known) :=
  includes.skip fun entry listed => ne_of_gt (lt_of_lt_of_le early (saved entry listed))

namespace Delivers

variable {setup : Setup} {metadata : Metadata} {post : Except Fault Verdict → Bytes → Store → Prop}
variable {position : Nat} {packet : Bytes} {store : Store} {known : List (RegisterName × Word)}
variable {slots : List (Nat × List UInt8)} {pointers : List (Word × CellId)} {target? : Option Nat}
variable {rest : List Line} {map : Int32} {missing index : Nat} {id : MapId} {held after : Map}
variable {number? : Option Nat}

/-- What a lookup finds is pointed to by the result register. -/
theorem lookup
    {offset : Int32} {place : Nat} {key : List UInt8}
    (listed : setup.code.lists position (Line.lookup map offset missing ++ rest))
    (few : position < 2 ^ 30) (saved : Saved known)
    (indexed : (BitVec.ofInt 32 map.toInt).toNat = index) (named : setup.maps[index]? = some id)
    (there : store.map? id = some held)
    (placed : stackSize + offset.toInt = place) (short : place < 2 ^ 32)
    (slot : (place, key) ∈ slots) (sized : held.schema.keySize = key.length)
    (looked : (Map.lookupCell key.toArray metadata.worker).run held = (.ok number?, after))
    (absent : number? = none → Delivers setup metadata post
      ⟨missing, packet, store.setMap id after, known, slots, pointers, target?⟩)
    (present : ∀ number pointer, number? = some number → setup.code.lists (position + 6) rest →
      Delivers setup metadata post ⟨position + 6, packet, store.setMap id after,
        (0, pointer) :: known, slots, (pointer, ⟨id, number⟩) :: pointers, target?⟩) :
    Delivers setup metadata post ⟨position, packet, store, known, slots, pointers, target?⟩ := by
  have small : index < 2 ^ 32 := indexed ▸ (BitVec.ofInt 32 map.toInt).isLt
  refine loadMap listed (by decide) fun listed => ?_
  rw [indexed]
  refine pointTo listed (by decide) short placed fun listed => ?_
  have scratch (first second : Word) : Includes known ((2, second) :: (1, first) :: known) :=
    saved.skip (saved.skip (.refl known) (by decide)) (by decide)
  refine callLookup listed (by omega) rfl named small there rfl slot sized looked
    (fun isNone listed => ?_) fun number pointer isSome nonzero listed => ?_
  · refine branch listed rfl rfl (fun _ => ?_) fun holds => absurd holds (by decide)
    exact weaken (saved.skip (scratch _ _) (by decide)) (List.Subset.refl _) (List.Subset.refl _)
      (absent isNone)
  · refine branch listed rfl rfl (fun holds => ?_) fun _ listed => ?_
    · exact absurd (beq_iff_eq.mp holds) nonzero
    · exact weaken ((scratch _ _).cons _) (List.Subset.refl _) (List.Subset.refl _)
        (present number pointer isSome listed)

/-- The key of an index, as programs lay it out. -/
theorem indexKey_toArray (index : Word) :
    (Memory.layOut index 4).toArray = Map.keyOfIndex index.toNat := by
  rw [Map.keyOfIndex, BitVec.ofNat_toNat, BitVec.setWidth_eq, Memory.layOut_eq_toBytes (by decide)]

/-- What a lookup of an index finds; the place of the index on the stack can be used again. -/
theorem lookupIndex
    {place : Int32}
    (listed : setup.code.lists position (Line.lookupIndex map place missing ++ rest))
    (few : position < 2 ^ 29) (saved : Saved known) (apart : Apart slots 480 4)
    (indexed : (BitVec.ofInt 32 map.toInt).toNat = index) (named : setup.maps[index]? = some id)
    (there : store.map? id = some held) (sized : held.schema.keySize = 4)
    (looked : (Map.lookupCell (Map.keyOfIndex (Word.ofImmediate place).toNat) metadata.worker).run
      held = (.ok number?, after))
    (absent : number? = none → Delivers setup metadata post
      ⟨missing, packet, store.setMap id after, known, slots, pointers, target?⟩)
    (present : ∀ number pointer, number? = some number → setup.code.lists (position + 7) rest →
      Delivers setup metadata post ⟨position + 7, packet, store.setMap id after,
        (0, pointer) :: known, slots, (pointer, ⟨id, number⟩) :: pointers, target?⟩) :
    Delivers setup metadata post ⟨position, packet, store, known, slots, pointers, target?⟩ := by
  refine storeStack 480 listed rfl rfl (by decide) apart fun listed => ?_
  rw [← indexKey_toArray] at looked
  refine lookup listed (by omega) saved indexed named there rfl (by decide) List.mem_cons_self
    sized looked (fun isNone => ?_) fun number pointer isSome listed => ?_
  · exact weaken (.refl _) (List.subset_cons_self _ _) (List.Subset.refl _) (absent isNone)
  · exact weaken (.refl _) (List.subset_cons_self _ _) (List.Subset.refl _)
      (present number pointer isSome listed)

theorem leave
    {verdict : Verdict} (listed : setup.code.lists position (Line.leave verdict))
    (means : Verdict.ofCode (Word.ofImmediate (Int32.ofNat verdict.code)) target? = .ok verdict)
    (holds : post (.ok verdict) packet store) :
    Delivers setup metadata post ⟨position, packet, store, known, slots, pointers, target?⟩ := by
  refine assign listed (by decide) rfl fun listed => ?_
  exact exit listed rfl (means.symm ▸ holds)

end Delivers

end Stage

end PacketFilter
