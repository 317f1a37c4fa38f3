import PacketFilter.Map.Recency

/-!
# Entries of tables that forget

Whatever happens to the order of use, an entry keeps its key and its value.
So what is true of the values that a table holds, and of those it is given,
goes on being true of the values that it holds.
-/

namespace PacketFilter.RecencyTable

variable {α : Type} {table : RecencyTable α}

theorem node?_some (table : RecencyTable α) (slot : Nat) :
    table.node? (some slot) = table.nodes[slot]?.join :=
  rfl

theorem node?_changeNode
    (table : RecencyTable α) (slot? other? : Option Nat)
    (change : RecencyNode α → RecencyNode α) :
    (table.changeNode slot? change).node? other? =
      if slot? = other? then (table.node? other?).map change else table.node? other? := by
  cases slot? with
  | none =>
      cases other? with
      | none => rfl
      | some other => rfl
  | some slot =>
      cases other? with
      | none => rfl
      | some other =>
          rw [changeNode, node?_some, node?_some, Array.getElem?_modify]
          by_cases same : slot = other
          · subst same
            rw [if_pos rfl, if_pos rfl]
            rcases table.nodes[slot]? with _ | _ | _ <;> rfl
          · rw [if_neg same, if_neg (fun equal => same (Option.some.inj equal))]

theorem node?_set
    (table : RecencyTable α) (slot other : Nat) (content? : Option (RecencyNode α)) :
    node? { table with nodes := table.nodes.setIfInBounds slot content? } (some other) =
      if slot = other ∧ slot < table.nodes.size then content? else table.node? (some other) := by
  rw [node?_some, node?_some, Array.getElem?_setIfInBounds]
  by_cases same : slot = other
  · subst same
    by_cases inside : slot < table.nodes.size
    · rw [if_pos rfl, if_pos inside, if_pos ⟨rfl, inside⟩]
      rfl
    · rw [if_pos rfl, if_neg inside, if_neg fun both => inside both.2,
        Array.getElem?_eq_none (Nat.le_of_not_lt inside)]
  · rw [if_neg same, if_neg fun both => same both.1]

theorem node?_push
    (table : RecencyTable α) (other : Nat) (content? : Option (RecencyNode α)) :
    node? { table with nodes := table.nodes.push content? } (some other) =
      if table.nodes.size = other then content? else table.node? (some other) := by
  rw [node?_some, node?_some, Array.getElem?_push]
  by_cases same : table.nodes.size = other
  · subst same
    rw [if_pos rfl, if_pos rfl]
    rfl
  · rw [if_neg fun equal => same equal.symm, if_neg same]

theorem slot_lt
    {slot : Nat} {node : RecencyNode α}
    (there : table.node? (some slot) = some node) : slot < table.nodes.size := by
  refine Nat.lt_of_not_le fun beyond => ?_
  rw [node?_some, Array.getElem?_eq_none beyond] at there
  cases there

theorem remove_of_held
    {slot : Nat} {node : RecencyNode α}
    (held : (table.unlink slot).node? (some slot) = some node) :
    table.remove slot =
      (some node,
        { table.unlink slot with
          nodes := (table.unlink slot).nodes.setIfInBounds slot none
          index := (table.unlink slot).index.filter (·.1 ≠ node.key)
          free := slot :: (table.unlink slot).free }) := by
  rw [remove, held]

theorem place_fresh (unused : table.free = []) (node : RecencyNode α) :
    table.place node =
      (table.nodes.size, { table with nodes := table.nodes.push (some node) }) := by
  rw [place, unused]

theorem place_freed
    {slot : Nat} {free : List Nat} (freed : table.free = slot :: free) (node : RecencyNode α) :
    table.place node =
      (slot, { table with free, nodes := table.nodes.setIfInBounds slot (some node) }) := by
  rw [place, freed]

/-- What is in a slot, apart from its place in the order of use. -/
def pair? (table : RecencyTable α) (slot? : Option Nat) : Option (Bytes × α) :=
  (table.node? slot?).map fun node => (node.key, node.value)

/-! ## Changes of the order of use -/

/-- Nothing but the order of use has changed. -/
structure Relinks (before after : RecencyTable α) : Prop where
  capacity : after.capacity = before.capacity
  index : after.index = before.index
  free : after.free = before.free
  size : after.nodes.size = before.nodes.size
  pair? : ∀ slot? : Option Nat, after.pair? slot? = before.pair? slot?

namespace Relinks

theorem refl (table : RecencyTable α) : table.Relinks table :=
  ⟨rfl, rfl, rfl, rfl, fun _ => rfl⟩

theorem trans
    {first second third : RecencyTable α}
    (earlier : first.Relinks second) (later : second.Relinks third) : first.Relinks third where
  capacity := later.capacity.trans earlier.capacity
  index := later.index.trans earlier.index
  free := later.free.trans earlier.free
  size := later.size.trans earlier.size
  pair? slot? := (later.pair? slot?).trans (earlier.pair? slot?)

theorem node?_none
    {before after : RecencyTable α} {slot? : Option Nat}
    (relinks : before.Relinks after) (empty : before.node? slot? = none) :
    after.node? slot? = none := by
  have same := relinks.pair? slot?
  rw [RecencyTable.pair?, RecencyTable.pair?, empty, Option.map_none, Option.map_eq_none_iff]
    at same
  exact same

theorem changeNode
    {change : RecencyNode α → RecencyNode α}
    (keeps : ∀ node, (change node).key = node.key ∧ (change node).value = node.value)
    (table : RecencyTable α) (slot? : Option Nat) :
    table.Relinks (table.changeNode slot? change) := by
  refine ⟨?_, ?_, ?_, ?_, fun other? => ?_⟩
  · cases slot? <;> rfl
  · cases slot? <;> rfl
  · cases slot? <;> rfl
  · cases slot? with
    | none => rfl
    | some slot => exact Array.size_modify ..
  · rw [RecencyTable.pair?, RecencyTable.pair?, node?_changeNode]
    split
    case isTrue =>
      cases table.node? other? with
      | none => rfl
      | some node => exact congrArg some (Prod.ext (keeps node).1 (keeps node).2)
    case isFalse => rfl

theorem linkNext (table : RecencyTable α) (slot? next? : Option Nat) :
    table.Relinks (table.linkNext slot? next?) := by
  rw [RecencyTable.linkNext]
  split
  · refine changeNode ?_ table slot?
    exact fun _ => ⟨rfl, rfl⟩
  · exact ⟨rfl, rfl, rfl, rfl, fun _ => rfl⟩

theorem linkPrevious (table : RecencyTable α) (slot? previous? : Option Nat) :
    table.Relinks (table.linkPrevious slot? previous?) := by
  rw [RecencyTable.linkPrevious]
  split
  · refine changeNode ?_ table slot?
    exact fun _ => ⟨rfl, rfl⟩
  · exact ⟨rfl, rfl, rfl, rfl, fun _ => rfl⟩

theorem unlink (table : RecencyTable α) (slot : Nat) : table.Relinks (table.unlink slot) := by
  rw [RecencyTable.unlink]
  split
  · exact refl table
  · exact (linkNext table _ _).trans (linkPrevious _ _ _)

theorem pushFront (table : RecencyTable α) (slot : Nat) :
    table.Relinks (table.pushFront slot) := by
  have front : table.Relinks (table.changeNode (some slot) fun node =>
      { node with previous? := none, next? := table.head? }) := by
    refine changeNode ?_ table (some slot)
    exact fun _ => ⟨rfl, rfl⟩
  have linked := front.trans (linkPrevious _ table.head? (some slot))
  exact ⟨linked.capacity, linked.index, linked.free, linked.size, linked.pair?⟩

theorem promote (table : RecencyTable α) (slot : Nat) : table.Relinks (table.promote slot) := by
  rw [RecencyTable.promote]
  split
  · exact refl table
  · exact (unlink table slot).trans (pushFront _ slot)

end Relinks

/-! ## Capacities -/

theorem remove_capacity (table : RecencyTable α) (slot : Nat) :
    (table.remove slot).2.capacity = table.capacity := by
  have kept := (Relinks.unlink table slot).capacity
  rw [remove]
  split
  · exact kept
  · exact kept

theorem forgetOldest_capacity (table : RecencyTable α) :
    table.forgetOldest.capacity = table.capacity := by
  rw [forgetOldest]
  split
  · rfl
  · exact remove_capacity table _

theorem place_capacity (table : RecencyTable α) (node : RecencyNode α) :
    (table.place node).2.capacity = table.capacity := by
  rw [place]
  split
  · rfl
  · rfl

theorem insert_capacity (table : RecencyTable α) (key : Bytes) (value : α) :
    (table.insert key value).capacity = table.capacity := by
  have roomy : (if table.isFull then table.forgetOldest else table).capacity = table.capacity := by
    split
    · exact forgetOldest_capacity table
    · rfl
  exact (Relinks.pushFront _ _).capacity.trans ((place_capacity _ { key, value }).trans roomy)

theorem replace_capacity (table : RecencyTable α) (slot : Nat) (value : α) :
    (table.replace slot value).capacity = table.capacity :=
  (Relinks.promote _ slot).capacity

theorem lookup_capacity (table : RecencyTable α) (key : Bytes) :
    (table.lookup key).2.capacity = table.capacity := by
  rw [lookup]
  split
  · rfl
  · exact (Relinks.promote table _).capacity

theorem update_capacity (table : RecencyTable α) (key : Bytes) (value : α) (mode : UpdateMode) :
    (table.update key value mode).2.capacity = table.capacity := by
  rw [update]
  split
  · split
    · rfl
    · exact replace_capacity table _ value
  · split
    · rfl
    · exact insert_capacity table key value

theorem take_capacity (table : RecencyTable α) (key : Bytes) :
    (table.take key).2.capacity = table.capacity := by
  rw [take]
  split
  · rfl
  · exact remove_capacity table _

/-! ## Values -/

/-- All values in the table are good. -/
def All (good : α → Prop) (table : RecencyTable α) : Prop :=
  ∀ (slot? : Option Nat) (node : RecencyNode α), table.node? slot? = some node → good node.value

namespace All

variable {good : α → Prop}

theorem mono
    {good' : α → Prop}
    (all : table.All good) (weaker : ∀ value, good value → good' value) : table.All good' :=
  fun slot? node there => weaker _ (all slot? node there)

theorem empty (capacity : Nat) : All good { capacity } := by
  intro slot? node there
  cases slot? with
  | none => cases there
  | some slot => cases there

/-- Only what is in the slots matters. -/
theorem of_nodes
    {other : RecencyTable α}
    (all : table.All good) (same : other.nodes = table.nodes) : other.All good := by
  intro slot? node there
  refine all slot? node ?_
  rw [node?, ← same]
  exact there

theorem relinks
    {other : RecencyTable α}
    (all : table.All good) (relinks : table.Relinks other) : other.All good := by
  intro slot? node there
  have same := relinks.pair? slot?
  rw [pair?, there, Option.map_some] at same
  rcases Option.map_eq_some_iff.mp same.symm with ⟨node', there', equal⟩
  exact (Prod.mk.inj equal).2 ▸ all slot? node' there'

/-- Setting a slot to a good entry or to none. -/
theorem setNode
    {slot : Nat} {content? : Option (RecencyNode α)}
    (all : table.All good) (fine : ∀ node, content? = some node → good node.value) :
    All good { table with nodes := table.nodes.setIfInBounds slot content? } := by
  intro other? node there
  cases other? with
  | none => cases there
  | some other =>
      rw [node?_set] at there
      split at there
      · exact fine node there
      · exact all (some other) node there

theorem remove (all : table.All good) (slot : Nat) :
    (∀ node, (table.remove slot).1 = some node → good node.value) ∧
      (table.remove slot).2.All good := by
  have unlinked := all.relinks (.unlink table slot)
  rw [RecencyTable.remove]
  split
  case h_1 => exact ⟨fun _ absurdity => (by cases absurdity), unlinked⟩
  case h_2 node there =>
    have emptied := @setNode _ _ _ slot none unlinked fun _ absurdity => (by cases absurdity)
    refine ⟨fun node' same => ?_, emptied.of_nodes rfl⟩
    cases same
    exact unlinked _ node there

theorem place
    {node : RecencyNode α}
    (all : table.All good) (fine : good node.value) : (table.place node).2.All good := by
  rw [RecencyTable.place]
  split
  case h_1 slot free _ =>
    have set := @setNode _ _ _ slot (some node) all fun _ same => (by cases same; exact fine)
    exact set.of_nodes rfl
  case h_2 =>
    intro other? node' there
    cases other? with
    | none => cases there
    | some other =>
        rw [node?_push] at there
        split at there
        case isTrue =>
          cases there
          exact fine
        case isFalse => exact all (some other) node' there

theorem forgetOldest (all : table.All good) : table.forgetOldest.All good := by
  rw [RecencyTable.forgetOldest]
  split
  · exact all
  · exact (all.remove _).2

theorem replace
    {value : α}
    (all : table.All good) (slot : Nat) (fine : good value) :
    (table.replace slot value).All good := by
  have changed : (table.changeNode (some slot) fun node => { node with value }).All good := by
    intro other? node there
    rw [node?_changeNode] at there
    split at there
    case isTrue =>
      rcases Option.map_eq_some_iff.mp there with ⟨node', _, rfl⟩
      exact fine
    case isFalse => exact all other? node there
  exact changed.relinks (.promote _ slot)

theorem insert
    {value : α}
    (all : table.All good) (key : Bytes) (fine : good value) :
    (table.insert key value).All good := by
  have roomy : All good (if table.isFull then table.forgetOldest else table) := by
    split
    · exact all.forgetOldest
    · exact all
  have placed := @place _ _ _ ⟨key, value, none, none⟩ roomy fine
  rw [RecencyTable.insert]
  generalize RecencyTable.place _ _ = result at placed ⊢
  rcases result with ⟨slot, filled⟩
  have indexed : All good { filled with index := (key, slot) :: filled.index } :=
    placed.of_nodes rfl
  exact indexed.relinks (.pushFront _ slot)

theorem lookup (all : table.All good) (key : Bytes) :
    (∀ value, (table.lookup key).1 = some value → good value) ∧
      (table.lookup key).2.All good := by
  rw [RecencyTable.lookup]
  split
  case h_1 => exact ⟨fun _ absurdity => (by cases absurdity), all⟩
  case h_2 slot there =>
    have promoted := all.relinks (.promote table slot)
    refine ⟨fun value found => ?_, promoted⟩
    rcases Option.map_eq_some_iff.mp found with ⟨node, there, rfl⟩
    exact promoted _ node there

theorem update
    {value : α}
    (all : table.All good) (key : Bytes) (fine : good value) (mode : UpdateMode) :
    (table.update key value mode).2.All good := by
  rw [RecencyTable.update]
  split
  · split
    · exact all
    · exact all.replace _ fine
  · split
    · exact all
    · exact all.insert key fine

theorem take (all : table.All good) (key : Bytes) : (table.take key).2.All good := by
  rw [RecencyTable.take]
  split
  · exact all
  · exact (all.remove _).2

end All

end PacketFilter.RecencyTable
