import Mathlib.Data.Finset.Card
import Mathlib.Data.List.Nodup
import PacketFilter.Proofs.Maps

/-!
# Shards of a table

Every key of a table is in the shard that it belongs to, and there only once.
So what a table has under a key is settled in one shard, the keys of all shards
are distinct, and the number counted beside the shards is that of the keys.

`find?_replace`, `find?_insert` and `find?_erase` say what each change does to
what is found; `WellFormed` is what they all keep.
-/

namespace PacketFilter

/-! ## Entries by their keys -/

section

variable {α : Type} (entries : List (Bytes × α)) (key other : Bytes) (value : α)

theorem lookup_isSome_iff : (entries.lookup key).isSome ↔ key ∈ entries.map Prod.fst := by
  induction entries with
  | nil => simp
  | cons entry rest continues =>
      rw [List.lookup_cons, List.map_cons, List.mem_cons]
      by_cases same : key = entry.1
      · simp [same]
      · simp [same, beq_false_of_ne same, continues]

theorem lookup_replaced :
    (entries.map fun entry => if entry.1 = key then (key, value) else entry).lookup other =
      if other = key then (entries.lookup key).map fun _ => value else entries.lookup other := by
  induction entries with
  | nil => simp
  | cons entry rest continues =>
      rw [List.map_cons, List.lookup_cons, List.lookup_cons, List.lookup_cons, continues]
      by_cases here : entry.1 = key
      · by_cases same : other = key
        · simp [here, same]
        · simp [here, same, beq_false_of_ne same]
      · by_cases same : other = key
        · have apart : key ≠ entry.1 := fun equal => here equal.symm
          simp [here, same, beq_false_of_ne apart]
        · simp [here, same]

theorem lookup_erased :
    (entries.filter (·.1 ≠ key)).lookup other =
      if other = key then none else entries.lookup other := by
  induction entries with
  | nil => simp
  | cons entry rest continues =>
      by_cases here : entry.1 = key
      · rw [List.filter_cons_of_neg (by simpa using here), continues, List.lookup_cons]
        by_cases same : other = key
        · simp [same]
        · have apart : other ≠ entry.1 := fun equal => same (equal.trans here)
          simp [same, beq_false_of_ne apart]
      · rw [List.filter_cons_of_pos (by simpa using here), List.lookup_cons, List.lookup_cons,
          continues]
        by_cases same : other = key
        · have apart : key ≠ entry.1 := fun equal => here equal.symm
          simp [same, beq_false_of_ne apart]
        · simp [same]

theorem keys_replaced :
    (entries.map fun entry => if entry.1 = key then (key, value) else entry).map Prod.fst =
      entries.map Prod.fst := by
  rw [List.map_map]
  refine List.map_congr_left fun entry _ => ?_
  show (if entry.1 = key then (key, value) else entry).1 = entry.1
  split
  case isTrue same => exact same.symm
  case isFalse => rfl

end

namespace Table

variable {α : Type} {table : Table α} {key other : Bytes} {value : α}

/-! ## What is found -/

theorem shard_setShard (table : Table α) (changed : List (Bytes × α)) :
    (table.setShard key changed).shard other =
      if shardOf other = shardOf key then changed else table.shard other := by
  show (table.shards.set (shardOf key).val changed)[(shardOf other).val] = _
  rw [Vector.getElem_set]
  by_cases same : shardOf other = shardOf key
  · rw [if_pos same, if_pos (congrArg Fin.val same.symm)]
  · rw [if_neg same, if_neg fun equal => same (Fin.ext equal.symm)]
    rfl

/-- A change that a shard makes for one key alone. -/
theorem find?_setShard
    {changed : List (Bytes × α)} {found? : Option α}
    (changes : ∀ other, changed.lookup other =
      if other = key then found? else (table.shard key).lookup other) :
    (table.setShard key changed).find? other =
      if other = key then found? else table.find? other := by
  rw [find?, find?, shard_setShard]
  by_cases shared : shardOf other = shardOf key
  · have same : table.shard key = table.shard other := congrArg table.shards.get shared.symm
    rw [if_pos shared, changes, same]
  · rw [if_neg shared, if_neg fun same => shared (congrArg shardOf same)]

theorem find?_replace (there : (table.find? key).isSome) :
    (table.replace key value).find? other =
      if other = key then some value else table.find? other := by
  refine find?_setShard fun other => ?_
  rcases Option.isSome_iff_exists.mp there with ⟨old, found⟩
  have held : (table.shard key).lookup key = some old := found
  rw [lookup_replaced, held]
  rfl

theorem find?_insert :
    (table.insert key value).find? other =
      if other = key then some value else table.find? other := by
  refine find?_setShard fun other => ?_
  rw [List.lookup_cons]
  by_cases same : other = key
  · simp [same]
  · simp [same, beq_false_of_ne same]

theorem find?_erase :
    (table.erase key).find? other = if other = key then none else table.find? other :=
  find?_setShard fun other => lookup_erased _ key other

@[simp]
theorem find?_empty (capacity : Nat) : ({ capacity } : Table α).find? key = none := by
  rw [find?, shard]
  show ((Vector.replicate shardCount [])[(shardOf key).val]).lookup key = none
  rw [Vector.getElem_replicate]
  rfl

/-! ## Where keys are -/

/-- Every key is in its shard, and there only once. -/
structure Placed (table : Table α) : Prop where
  distinct : ∀ (index : Nat) (inside : index < shardCount),
    (table.shards[index].map Prod.fst).Nodup
  placed : ∀ (index : Nat) (inside : index < shardCount),
    ∀ entry ∈ table.shards[index], (shardOf entry.1).val = index

namespace Placed

theorem mem_keys (holds : table.Placed) : key ∈ table.keys ↔ (table.find? key).isSome := by
  rw [find?, lookup_isSome_iff, keys, List.mem_map, List.mem_map]
  constructor
  · rintro ⟨entry, listed, rfl⟩
    rcases mem_entries.mp listed with ⟨index, inside, among⟩
    have here := holds.placed index inside entry among
    subst here
    exact ⟨entry, among, rfl⟩
  · rintro ⟨entry, listed, rfl⟩
    exact ⟨entry, mem_of_mem_shard listed, rfl⟩

/-- No key is listed twice: not in one shard, and not in two, as it belongs to one only. -/
theorem keys_nodup (holds : table.Placed) : table.keys.Nodup := by
  rw [keys, entries, List.map_flatten, List.nodup_flatten]
  constructor
  · intro keys listed
    rcases List.mem_map.mp listed with ⟨shard, among, rfl⟩
    rcases Vector.mem_iff_getElem.mp (Vector.mem_toList_iff.mp among) with ⟨index, inside, rfl⟩
    exact holds.distinct index inside
  · rw [List.pairwise_map, List.pairwise_iff_getElem]
    intro first second inside inside' before
    rw [Vector.length_toList] at inside inside'
    rw [Vector.getElem_toList, Vector.getElem_toList, List.disjoint_left]
    intro key listed listed'
    rcases List.mem_map.mp listed with ⟨entry, among, rfl⟩
    rcases List.mem_map.mp listed' with ⟨entry', among', same⟩
    have here := holds.placed first inside entry among
    have there := holds.placed second inside' entry' among'
    rw [same] at there
    exact Nat.ne_of_lt before (here.symm.trans there)

/-- A shard may be changed as long as it gets no key of another shard. -/
theorem setShard
    {changed : List (Bytes × α)}
    (holds : table.Placed) (distinct : (changed.map Prod.fst).Nodup)
    (keyed : ∀ entry ∈ changed, entry.1 = key ∨ entry.1 ∈ (table.shard key).map Prod.fst) :
    (table.setShard key changed).Placed where
  distinct index inside := by
    simp only [Table.setShard, Vector.getElem_set]
    split
    · exact distinct
    · exact holds.distinct index inside
  placed index inside entry listed := by
    simp only [Table.setShard, Vector.getElem_set] at listed
    split at listed
    case isTrue here =>
      subst here
      rcases keyed entry listed with same | old
      · rw [same]
      · rcases List.mem_map.mp old with ⟨entry', among, same⟩
        rw [← same]
        exact holds.placed _ (shardOf key).isLt entry' among
    case isFalse => exact holds.placed index inside entry listed

theorem shard_nodup (holds : table.Placed) (key : Bytes) :
    ((table.shard key).map Prod.fst).Nodup :=
  holds.distinct _ (shardOf key).isLt

end Placed

/-- Keys are placed, and counted. -/
structure WellFormed (table : Table α) : Prop extends table.Placed where
  counted : table.count = table.keys.toFinset.card

namespace WellFormed

theorem empty (capacity : Nat) : WellFormed ({ capacity } : Table α) where
  distinct index inside := by simp
  placed index inside entry listed := by simp at listed
  counted := by simp [keys]

theorem replace (wellFormed : table.WellFormed) (there : (table.find? key).isSome) :
    (table.replace key value).WellFormed := by
  have keys := keys_replaced (table.shard key) key value
  have placed : (table.replace key value).Placed := by
    refine wellFormed.setShard ?_ fun entry listed => .inr ?_
    · rw [keys]
      exact wellFormed.shard_nodup key
    · rw [← keys]
      exact List.mem_map_of_mem listed
  refine { placed with counted := wellFormed.counted.trans (congrArg Finset.card ?_) }
  ext other
  rw [List.mem_toFinset, List.mem_toFinset, wellFormed.mem_keys, placed.mem_keys,
    find?_replace there]
  by_cases same : other = key
  · simp [same, there]
  · simp [same]

theorem insert (wellFormed : table.WellFormed) (absent : table.find? key = none) :
    (table.insert key value).WellFormed := by
  have fresh : key ∉ (table.shard key).map Prod.fst := by
    rw [← lookup_isSome_iff]
    show ¬ (table.find? key).isSome
    simp [absent]
  have placed : (table.insert key value).Placed := by
    have set : (table.setShard key ((key, value) :: table.shard key)).Placed := by
      refine wellFormed.setShard ?_ (List.forall_mem_cons.mpr ⟨.inl rfl, fun entry listed => ?_⟩)
      · exact List.nodup_cons.mpr ⟨fresh, wellFormed.shard_nodup key⟩
      · exact .inr (List.mem_map_of_mem listed)
    exact ⟨set.distinct, set.placed⟩
  have keys : (table.insert key value).keys.toFinset = Insert.insert key table.keys.toFinset := by
    ext other
    rw [Finset.mem_insert, List.mem_toFinset, List.mem_toFinset, wellFormed.mem_keys,
      placed.mem_keys, find?_insert]
    by_cases same : other = key
    · simp [same]
    · simp [same]
  refine { placed with counted := ?_ }
  rw [keys, Finset.card_insert_of_notMem, ← wellFormed.counted]
  · rfl
  · rw [List.mem_toFinset, wellFormed.mem_keys, absent]
    exact Bool.false_ne_true

theorem erase (wellFormed : table.WellFormed) (there : (table.find? key).isSome) :
    (table.erase key).WellFormed := by
  have placed : (table.erase key).Placed := by
    have set : (table.setShard key ((table.shard key).filter (·.1 ≠ key))).Placed := by
      refine wellFormed.setShard ?_ fun entry listed => .inr ?_
      · exact (wellFormed.shard_nodup key).sublist (List.filter_sublist.map _)
      · exact List.mem_map_of_mem (List.mem_filter.mp listed).1
    exact ⟨set.distinct, set.placed⟩
  have keys : (table.erase key).keys.toFinset = table.keys.toFinset.erase key := by
    ext other
    rw [Finset.mem_erase, List.mem_toFinset, List.mem_toFinset, wellFormed.mem_keys,
      placed.mem_keys, find?_erase]
    by_cases same : other = key
    · simp [same]
    · simp [same]
  refine { placed with counted := ?_ }
  rw [keys, Finset.card_erase_of_mem, ← wellFormed.counted]
  · rfl
  · rw [List.mem_toFinset, wellFormed.mem_keys]
    exact there

end WellFormed

end Table

end PacketFilter
