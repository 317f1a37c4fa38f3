import PacketFilter.Proofs.Executing
import PacketFilter.Proofs.Forking
import PacketFilter.Proofs.Loading

/-!
# Arguments of helpers

What the check of a call knows of an argument, said of the word in the
argument register: a map handle leads to the declared map, and memory can be
read, alike with either stack.
-/

namespace PacketFilter

section

variable {scene : Scene} {valuation : Nat → Word} {machine : Machine} {twin : Bytes}
variable {focus : Focus} {pointer : AbstractValue} {word : Word} {register size : Nat}

/-- Both memories hold the same bytes at an address. -/
def Reads (memory : Memory) (twin : Bytes) (address : Word) (size : Nat) : Prop :=
  ∃ bytes, memory.read? address size = some bytes ∧
    (memory.withStack twin).read? address size = some bytes

/-- Neither memory can be read at the address, because the stack does not hold a frame. -/
def Misses (scene : Scene) (memory : Memory) (twin : Bytes) (address : Word) (size : Nat) : Prop :=
  memory.read? address size = none ∧ (memory.withStack twin).read? address size = none ∧
    ¬ scene.HoldsFrame

/-- A helper does not read past the end of the packet. -/
theorem misses_packet_read
    {memory : Memory} {place : Nat}
    (names : RegionAddress.Names word RegionAddress.packet place) (nonempty : 0 < size)
    (outside : memory.packet.size ≤ place) :
    memory.read? word size = none := by
  rw [Memory.read?_packet names, Bytes.read?, if_neg, Option.map_none]
  rw [Bytes.covers_iff]
  omega

/-- What falls into a region is read alike beside any stack. -/
theorem reads_of_falls
    {memory : Memory}
    (falls : memory.Falls word size) :
    Reads memory twin word size := by
  rcases falls.read with ⟨bytes, there⟩
  exact ⟨bytes, there, by rw [Memory.read?_withStack falls.elsewhere, there]⟩

/-- Memory that a helper may read. -/
theorem readable_sound
    (represents : focus.state.Represents scene valuation machine twin) (roomy : scene.Roomy)
    (describes : (focus.state.reading scene valuation machine.memory).Describes pointer word)
    (nonempty : 0 < size) (short : size < 2 ^ 62)
    (passed : checkHelperMemory scene.setting focus register pointer size = .ok ()) :
    Reads machine.memory twin word size ∨ Misses scene machine.memory twin word size := by
  have sound := represents.sound
  have still : word + BitVec.ofInt 64 0 = word := by simp
  simp only [checkHelperMemory, demand_bind_eq_ok] at passed
  rcases passed with ⟨checked, passed⟩
  rw [Bool.not_eq_true'] at checked
  split at passed
  case h_1 kind =>
    rw [liftStack_eq_ok] at passed
    rcases represents.frame.readable passed short with ⟨first, inside, agree⟩
    rw [← Int.add_zero pointer.offset] at inside
    have placed := represents.inStacks roomy describes kind inside
    rw [still] at placed
    rcases placed with places | ⟨missing, place, outside, names⟩
    · have same : Bytes.slice machine.memory.stack (scene.position first) size =
          Bytes.slice twin (scene.position first) size := agree places.covered
      refine .inl ⟨(Bytes.slice machine.memory.stack (scene.position first) size).toArray, ?_, ?_⟩
      · rw [Memory.read?_stack places.names, Bytes.read?_of_inside places.room, Option.map_some]
      · rw [Memory.read?_stack places.names]
        show (Bytes.read? twin _ _).map _ = _
        rw [Bytes.read?_of_inside places.room', same, Option.map_some]
    · exact .inr ⟨misses_packet_read names nonempty outside,
        misses_packet_read names nonempty outside, missing⟩
  case h_2 kind =>
    have falls := falls_packet sound describes kind nonempty short (by decide) passed
    rw [still] at falls
    exact .inl (reads_of_falls falls)
  case h_3 kind =>
    rcases Checked.bind_eq_ok.mp passed with ⟨schema, declared, accesses⟩
    rcases falls_mapValue sound describes kind checked (Setting.schemaOf_eq_ok.mp declared)
      accesses with ⟨index, place, id, cell, names, region, there, inside, _⟩
    rw [still] at names
    exact .inl (reads_of_falls (.mapValue index place id cell names region there inside))
  case h_4 kind =>
    rcases falls_record sound describes kind checked passed with
      ⟨index, place, number, record, cell, names, region, there, inside⟩
    rw [still] at names
    exact .inl (reads_of_falls (.record index place number record cell names region there inside))
  case h_5 => cases passed

/-- What a map handle leads to. -/
structure LeadsTo (setup : Setup) (memory : Memory) (word : Word) (schema : Schema)
    (id : MapId) (map : Map) : Prop where
  region : RegionAddress.region word = RegionAddress.mapHandle
  named : setup.maps[RegionAddress.offset word]? = some id
  there : memory.store.map? id = some map
  schema : map.schema = schema
  wellFormed : map.WellFormed

/-- A handle of a declared map. -/
theorem handle_leads
    {setup : Setup} {state : AbstractState} {memory : Memory} {value : AbstractValue}
    {schema : Schema}
    (sound : memory.Sound scene) (maps : setup.maps = scene.maps)
    (describes : (state.reading scene valuation memory).Describes value word)
    (kind : value.kind = .mapHandle)
    (declared : scene.setting.schema? value.mapIndex = some schema) :
    ∃ id map, LeadsTo setup memory word schema id map ∧
      scene.maps[value.mapIndex]? = some id := by
  have byKind := describes.byKind
  simp only [Interpretation.Matches, kind] at byKind
  rcases byKind with ⟨made, short⟩
  rcases sound.maps value.mapIndex schema declared with ⟨id, map, named, there, schemed⟩
  have number := RegionAddress.toNat_make RegionAddress.mapHandle value.mapIndex
  rw [← made] at number
  have names : RegionAddress.Names word RegionAddress.mapHandle value.mapIndex := by
    apply RegionAddress.names_of_toNat _ short
    rw [number, Nat.mod_eq_of_lt short]
    rfl
  refine ⟨id, map, ⟨names.region, ?_, there, schemed, sound.store id map there⟩, named⟩
  rw [maps, names.offset]
  exact named

/-- A handle that leads to a map is resolved to it. -/
theorem run_mapOf
    {setup : Setup} {schema : Schema} {id : MapId} {map : Map}
    (leads : LeadsTo setup machine.memory word schema id map) :
    (Execution.mapOf setup word).run machine = (.ok (id, map), machine) := by
  have there := leads.there
  simp [Execution.mapOf, leads.region, leads.named, there]

theorem LeadsTo.withStack
    {setup : Setup} {memory : Memory} {schema : Schema} {id : MapId} {map : Map}
    (leads : LeadsTo setup memory word schema id map) :
    LeadsTo setup (memory.withStack twin) word schema id map :=
  ⟨leads.region, leads.named, leads.there, leads.schema, leads.wellFormed⟩

end

end PacketFilter
