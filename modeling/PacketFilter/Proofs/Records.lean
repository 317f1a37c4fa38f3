import PacketFilter.Proofs.Identities

/-!
# Regions and records handed out

A region that is handed out lies behind all those before it.  A reserved
record comes with a reference of its own, which is given up when the record is
released; every other record stays what it was.
-/

namespace PacketFilter

namespace Memory

variable {scene : Scene} {memory memory' : Memory} {region : Region} {address : Word}

/-! ## Regions -/

/-- What a region leads to is there. -/
def Leads (memory : Memory) : Region → Prop
  | .mapValue cell =>
    ∃ map, memory.store.map? cell.map = some map ∧ cell.number < map.cells.size
  | .record number => number < memory.records.size

/-- A memory with one more region. -/
def push (memory : Memory) (region : Region) : Memory :=
  { memory with regions := memory.regions.push region }

/-- A region is added as long as its number stays below the handles of maps. -/
theorem addRegion?_eq_some
    (added : memory.addRegion? region = some (address, memory')) :
    RegionAddress.firstDynamic + memory.regions.size < RegionAddress.mapHandle ∧
      address = RegionAddress.make (RegionAddress.firstDynamic + memory.regions.size) 0 ∧
        memory' = memory.push region := by
  simp only [addRegion?] at added
  split at added
  case isTrue short =>
    cases added
    exact ⟨short, rfl, rfl⟩
  case isFalse => cases added

theorem addRegion?_withStack
    (memory : Memory) (region : Region) (stack : Bytes) :
    (memory.withStack stack).addRegion? region =
      (memory.addRegion? region).map fun added => (added.1, added.2.withStack stack) := by
  have regions : (memory.withStack stack).regions = memory.regions := rfl
  simp only [addRegion?, regions]
  by_cases short : RegionAddress.firstDynamic + memory.regions.size < RegionAddress.mapHandle
  · simp only [if_pos short, Option.map_some]
    rfl
  · simp only [if_neg short, Option.map_none]

/-- A region that has been handed out. -/
theorem Sound.push
    (sound : memory.Sound scene) (leads : memory.Leads region)
    (short : RegionAddress.firstDynamic + memory.regions.size < RegionAddress.mapHandle) :
    Proceeds scene memory (memory.push region) ∧
      (memory.push region).PointsTo
        (RegionAddress.make (RegionAddress.firstDynamic + memory.regions.size) 0) region := by
  refine ⟨⟨{ sound with regions := ?_, cells := ?_, numbers := ?_ }, ⟨rfl, rfl, ?_⟩, rfl, rfl⟩,
    memory.regions.size, rfl, Array.getElem?_push_size⟩
  · rw [Memory.push, Array.size_push]
    omega
  · intro id held
    rcases Array.mem_push.mp held with old | new
    · exact sound.cells id old
    · rw [← new] at leads
      exact leads
  · intro number held
    rcases Array.mem_push.mp held with old | new
    · exact sound.numbers number old
    · rw [← new] at leads
      exact leads
  · intro index other there
    have inside := (Array.getElem?_eq_some_iff.mp there).1
    show (memory.regions.push region)[index]? = some other
    rw [Array.getElem?_push, if_neg (Nat.ne_of_lt inside)]
    exact there

/-! ## Records -/

/-- A record that is opened is found under the next number, and the others under theirs. -/
theorem record?_push
    {record : OpenRecord}
    (pushed : memory'.records = memory.records.push (some record)) (number : Nat) :
    memory'.record? number =
      if number = memory.records.size then some record else memory.record? number := by
  simp only [record?, pushed, Array.getElem?_push]
  split <;> rfl

/-- A record that is closed is found no more, and the others under their numbers. -/
theorem record?_clear
    {cleared : Nat}
    (taken : memory'.records = memory.records.setIfInBounds cleared none) (number : Nat) :
    memory'.record? number = if cleared = number then none else memory.record? number := by
  simp only [record?, taken, Array.getElem?_setIfInBounds]
  split
  case isTrue => split <;> rfl
  case isFalse => rfl

theorem lt_of_record
    {number : Nat} {record : OpenRecord}
    (opened : memory.record? number = some record) :
    number < memory.records.size := by
  rw [record?, Option.join_eq_some_iff] at opened
  exact (Array.getElem?_eq_some_iff.mp opened).1

theorem Sound.complete
    (sound : memory.Sound scene) (record : OpenRecord) (isDiscarded : Bool) :
    Proceeds scene memory (memory.complete record isDiscarded) :=
  sound.proceeds_store
    (sound.store.modifyRing record.map fun _ wellFormed => wellFormed.complete _ isDiscarded)

/-- One more record is open. -/
theorem Sound.pushRecord
    {record : OpenRecord} {map : Map}
    (sound : memory.Sound scene) (there : memory.store.map? record.map = some map)
    (ringed : map.schema.kind = .ringBuffer)
    (fits : record.reservation.length ≤ map.schema.valueSize) :
    Sound scene { memory with records := memory.records.push (some record) } := by
  refine { sound with numbers := ?_, records := ?_ }
  · intro number held
    rw [Array.size_push]
    exact (sound.numbers number held).trans (Nat.lt_succ_self _)
  · intro number other opened
    rw [record?_push rfl] at opened
    split at opened
    case isTrue =>
      cases opened
      exact ⟨map, there, ringed, fits⟩
    case isFalse => exact sound.records number other opened

/-- A record is taken back. -/
theorem Sound.clearRecord
    (sound : memory.Sound scene) (number : Nat) :
    Sound scene { memory with records := memory.records.setIfInBounds number none } := by
  refine { sound with numbers := ?_, records := ?_ }
  · intro other held
    rw [Array.size_setIfInBounds]
    exact sound.numbers other held
  · intro other record opened
    rw [@record?_clear memory _ _ rfl] at opened
    split at opened
    case isTrue => cases opened
    case isFalse => exact sound.records other record opened

theorem addRecord_eq
    (memory : Memory) (record : OpenRecord) :
    memory.addRecord record =
      if RegionAddress.firstDynamic + memory.regions.size < RegionAddress.mapHandle then
        (some (RegionAddress.make (RegionAddress.firstDynamic + memory.regions.size) 0),
          push { memory with records := memory.records.push (some record) }
            (.record memory.records.size))
      else (none, memory.complete record true) := by
  simp only [addRecord, addRegion?]
  by_cases short : RegionAddress.firstDynamic + memory.regions.size < RegionAddress.mapHandle
  · simp only [if_pos short]
    rfl
  · simp only [if_neg short]

/-- A record whose region is added is open under the next number. -/
theorem addRecord_eq_some
    {record : OpenRecord} (added : memory.addRecord record = (some address, memory')) :
    RegionAddress.firstDynamic + memory.regions.size < RegionAddress.mapHandle ∧
      address = RegionAddress.make (RegionAddress.firstDynamic + memory.regions.size) 0 ∧
        memory' = push { memory with records := memory.records.push (some record) }
          (.record memory.records.size) := by
  rw [addRecord_eq] at added
  split at added <;> cases added
  case isTrue short => exact ⟨short, rfl, rfl⟩

/-- A record for which no region is left is discarded at once. -/
theorem addRecord_eq_none
    {record : OpenRecord} (dropped : memory.addRecord record = (none, memory')) :
    memory' = memory.complete record true := by
  rw [addRecord_eq] at dropped
  split at dropped <;> cases dropped
  case isFalse => rfl

/-- A reserved record is either open afterwards, at the base of a region of its own, or has been
given back. -/
theorem Sound.addRecord
    {record : OpenRecord} {map : Map} {address? : Option Word}
    (sound : memory.Sound scene) (there : memory.store.map? record.map = some map)
    (ringed : map.schema.kind = .ringBuffer)
    (fits : record.reservation.length ≤ map.schema.valueSize)
    (added : memory.addRecord record = (address?, memory')) :
    memory'.Sound scene ∧ memory.Follows memory' ∧ memory'.stack = memory.stack ∧
      (address? = none ∧ memory'.records = memory.records ∨
        ∃ address, address? = some address ∧
          memory'.records = memory.records.push (some record) ∧
            memory'.PointsTo address (.record memory.records.size)) := by
  cases address? with
  | none =>
      cases addRecord_eq_none added
      have completes := sound.complete record true
      exact ⟨completes.sound, completes.follows, rfl, .inl ⟨rfl, rfl⟩⟩
  | some address =>
      rcases addRecord_eq_some added with ⟨short, rfl, rfl⟩
      let opened := { memory with records := memory.records.push (some record) }
      have isNew : opened.Leads (.record memory.records.size) := by
        rw [Leads, Array.size_push]
        exact Nat.lt_succ_self _
      rcases (sound.pushRecord there ringed fits).push isNew short with ⟨grown, points⟩
      have follows : memory.Follows opened := ⟨rfl, rfl, fun _ _ held => held⟩
      exact ⟨grown.sound, follows.trans grown.follows, rfl, .inr ⟨_, rfl, rfl, points⟩⟩

theorem addRecord_withStack
    (memory : Memory) (record : OpenRecord) (stack : Bytes) :
    (memory.withStack stack).addRecord record =
      ((memory.addRecord record).1, (memory.addRecord record).2.withStack stack) := by
  have regions : (memory.withStack stack).regions = memory.regions := rfl
  rw [addRecord_eq, addRecord_eq, regions]
  by_cases short : RegionAddress.firstDynamic + memory.regions.size < RegionAddress.mapHandle
  · rw [if_pos short, if_pos short]
    rfl
  · rw [if_neg short, if_neg short]
    rfl

/-- The base of an open record names it for release. -/
theorem release?_of_pointsTo
    {number : Nat} {record : OpenRecord}
    (bound : RegionAddress.firstDynamic + memory.regions.size ≤ RegionAddress.mapHandle)
    (there : memory.PointsTo address (.record number))
    (opened : memory.record? number = some record) :
    memory.release? address =
      some (record, { memory with records := memory.records.setIfInBounds number none }) := by
  rcases there with ⟨index, place, held⟩
  have value := (toNat_base bound held).2
  rw [← place, ← Nat.add_zero (_ * 2 ^ 32)] at value
  have names := RegionAddress.names_of_toNat value (by decide)
  simp only [release?, names.offset, names.region, region?_dynamic, held, opened,
    ne_eq, not_true_eq_false, if_false, Option.pure_def, Option.bind_eq_bind, Option.bind_some]

end Memory

namespace Interpretation

variable {before after : Interpretation} {reference : Nat}

/-- One more reference is held: it stands for null or for the one record that is new. -/
theorem Tracks.acquire
    (tracks : before.Tracks) (follows : before.memory.Follows after.memory)
    (bound : RegionAddress.firstDynamic + after.memory.regions.size ≤ RegionAddress.mapHandle)
    (fresh : reference ∉ before.references)
    (references : after.references = before.references ++ [reference])
    (valuation : ∀ other ∈ before.references, after.valuation other = before.valuation other)
    (kept : ∀ number, (before.memory.record? number).isSome = true →
      (after.memory.record? number).isSome = true)
    (known : ∀ number, (after.memory.record? number).isSome = true →
      (before.memory.record? number).isSome = true ∨
        after.memory.Opens (after.valuation reference) number)
    (opened : after.valuation reference ≠ 0 →
      ∃ number, after.memory.Opens (after.valuation reference) number ∧
        before.memory.record? number = none) :
    after.Tracks := by
  have opens {word : Word} {number : Nat} (opens : before.memory.Opens word number) :
      after.memory.Opens word number :=
    ⟨follows.pointsTo opens.1, kept number opens.2⟩
  have old {other number : Nat} (held : other ∈ before.references)
      (there : after.memory.Opens (before.valuation other) number) :
      before.memory.Opens (before.valuation other) number :=
    tracks.opens_before bound opens held there
  -- What the new reference opens is no record that was open before.
  have apart {other number : Nat} (held : other ∈ before.references)
      (there : after.memory.Opens (after.valuation other) number)
      (there' : after.memory.Opens (after.valuation reference) number) : False := by
    rw [valuation other held] at there
    rcases opened (there'.1.ne_zero bound) with ⟨number', isNew, absent⟩
    have same := isNew.1.unique there'.1 bound
    cases same
    have isOpen := (old held there).2
    rw [absent] at isOpen
    cases isOpen
  constructor
  case nodup =>
    rw [references]
    exact tracks.nodup.append (List.nodup_singleton reference) fun other held isNew => by
      rw [List.mem_singleton.mp isNew] at held
      exact fresh held
  case opened =>
    intro other held nonNull
    rw [references] at held
    rcases List.mem_append.mp held with held | isNew
    · rw [valuation other held] at nonNull ⊢
      rcases tracks.opened other held nonNull with ⟨number, there⟩
      exact ⟨number, opens there⟩
    · rw [List.mem_singleton.mp isNew] at nonNull ⊢
      rcases opened nonNull with ⟨number, there, _⟩
      exact ⟨number, there⟩
  case known =>
    intro number isOpen
    rw [references]
    rcases known number isOpen with isOpen | there
    · rcases tracks.known number isOpen with ⟨other, held, there⟩
      refine ⟨other, List.mem_append_left _ held, ?_⟩
      rw [valuation other held]
      exact opens there
    · exact ⟨reference, List.mem_append_right _ (List.mem_singleton.mpr rfl), there⟩
  case distinct =>
    intro first held second held' number there there'
    rw [references] at held held'
    rcases List.mem_append.mp held with held | isNew
    · rcases List.mem_append.mp held' with held' | isNew'
      · rw [valuation first held] at there
        rw [valuation second held'] at there'
        exact tracks.distinct first held second held' number (old held there) (old held' there')
      · rw [List.mem_singleton.mp isNew'] at there'
        exact absurd there' (apart held there)
    · rw [List.mem_singleton.mp isNew] at there ⊢
      rcases List.mem_append.mp held' with held' | isNew'
      · exact absurd there (apart held' there')
      · exact (List.mem_singleton.mp isNew').symm

/-- A reference is given up together with the record that it stands for. -/
theorem Tracks.release
    {released : Nat}
    (tracks : before.Tracks)
    (bound : RegionAddress.firstDynamic + before.memory.regions.size ≤ RegionAddress.mapHandle)
    (held : reference ∈ before.references)
    (opens : before.memory.Opens (before.valuation reference) released)
    (regions : after.memory.regions = before.memory.regions)
    (references : after.references = before.references.erase reference)
    (valuation : after.valuation = before.valuation)
    (records : ∀ number, after.memory.record? number =
      if released = number then none else before.memory.record? number) :
    after.Tracks := by
  have points {word : Word} {region : Region} (there : before.memory.PointsTo word region) :
      after.memory.PointsTo word region := by
    rwa [Memory.PointsTo, regions]
  have back {word : Word} {number : Nat} (there : after.memory.Opens word number) :
      released ≠ number ∧ before.memory.Opens word number := by
    rcases there with ⟨there, isOpen⟩
    rw [records] at isOpen
    split at isOpen
    case isTrue => cases isOpen
    case isFalse other =>
      rw [Memory.PointsTo, regions] at there
      exact ⟨other, there, isOpen⟩
  have forth {word : Word} {number : Nat} (other : released ≠ number)
      (there : before.memory.Opens word number) : after.memory.Opens word number :=
    ⟨points there.1, by rw [records, if_neg other]; exact there.2⟩
  constructor
  case nodup =>
    rw [references]
    exact tracks.nodup.erase reference
  case opened =>
    intro other kept nonNull
    rw [references, tracks.nodup.mem_erase_iff] at kept
    rw [valuation] at nonNull ⊢
    rcases tracks.opened other kept.2 nonNull with ⟨number, there⟩
    refine ⟨number, forth ?_ there⟩
    rintro rfl
    exact kept.1 (tracks.distinct other kept.2 reference held released there opens)
  case known =>
    intro number isOpen
    rw [references, valuation]
    rw [records] at isOpen
    split at isOpen
    case isTrue => cases isOpen
    case isFalse other =>
      rcases tracks.known number isOpen with ⟨holder, kept, there⟩
      refine ⟨holder, tracks.nodup.mem_erase_iff.mpr ⟨?_, kept⟩, forth other there⟩
      rintro rfl
      have same := there.1.unique opens.1 bound
      cases same
      exact other rfl
  case distinct =>
    intro first kept second kept' number there there'
    rw [references] at kept kept'
    rw [valuation] at there there'
    exact tracks.distinct first (List.mem_of_mem_erase kept) second (List.mem_of_mem_erase kept')
      number (back there).2 (back there').2

/-- What is known without a reference outlasts the record that the reference stands for. -/
theorem Tracks.describes_released
    {released : Nat} {value : AbstractValue} {word : Word}
    (tracks : before.Tracks) (held : reference ∈ before.references)
    (opens : before.memory.Opens (before.valuation reference) released)
    (scene : after.scene = before.scene) (follows : before.memory.Follows after.memory)
    (references : after.references = before.references.erase reference)
    (valuation : after.valuation = before.valuation)
    (records : ∀ number, after.memory.record? number =
      if released = number then none else before.memory.record? number)
    (other : value.reference ≠ reference) (describes : before.Describes value word) :
    after.Describes value word := by
  apply Keeps.describes _ describes
  refine ⟨scene, follows, by rw [valuation], ?_⟩
  intro kind kept number record there isOpen
  have byKind := describes.byKind
  simp only [Matches, kind] at byKind
  rw [byKind.1] at other
  refine ⟨by rw [references]; exact tracks.nodup.mem_erase_iff.mpr ⟨other, kept⟩, ?_⟩
  rw [records, if_neg]
  · exact isOpen
  · rintro rfl
    apply other
    refine tracks.distinct value.identity kept reference held released ⟨there, ?_⟩ opens
    rw [isOpen]
    rfl

end Interpretation

namespace AbstractState.Represents

variable {state state' : AbstractState} {scene : Scene} {valuation valuation' : Nat → Word}
variable {machine : Machine} {twin : Bytes} {memory' : Memory} {last reference number : Nat}

/-- The state holds one more reference, under an identity that is new. -/
theorem acquire
    (represents : state.Represents scene valuation machine twin) (within : state.Within last)
    (agree : ∀ identity ≤ last, valuation' identity = valuation identity)
    (sound : memory'.Sound scene) (follows : machine.memory.Follows memory')
    (stack : memory'.stack = machine.memory.stack)
    (kept : ∀ number record, machine.memory.record? number = some record →
      memory'.record? number = some record)
    (known : ∀ number, (memory'.record? number).isSome = true →
      (machine.memory.record? number).isSome = true ∨ memory'.Opens (valuation' (last + 1)) number)
    (opened : valuation' (last + 1) ≠ 0 →
      ∃ number, memory'.Opens (valuation' (last + 1)) number ∧
        machine.memory.record? number = none) :
    (state.acquire (last + 1)).Represents scene valuation' { machine with memory := memory' }
      twin := by
  have lasts {value : AbstractValue} {word : Word} (identity : value.identity ≤ last)
      (describes : (state.reading scene valuation machine.memory).Describes value word) :
      ((state.acquire (last + 1)).reading scene valuation' memory').Describes value word := by
    apply Interpretation.Keeps.describes _ describes
    refine ⟨rfl, follows, agree value.identity identity, ?_⟩
    exact fun _ held number record _ there =>
      ⟨List.mem_append_left _ held, kept number record there⟩
  refine represents.weaken sound stack ?_ ?_ (fun _ _ => .inl rfl) ?_ ?_
  · rw [agree 0 (Nat.zero_le last)]
    exact represents.zero
  · exact fun name word => lasts (within.registers name)
  · intro byte small value spilled
    exact ⟨value, spilled, fun word => lasts (within.spills byte small value spilled)⟩
  · refine @Interpretation.Tracks.acquire _
      ((state.acquire (last + 1)).reading scene valuation' memory') (last + 1) represents.tracks
      follows sound.regions ?_ rfl ?_ ?_ known opened
    · intro held
      exact absurd (within.references (last + 1) held) (Nat.not_succ_le_self last)
    · exact fun other held => agree other (within.references other held)
    · intro number isOpen
      rcases Option.isSome_iff_exists.mp isOpen with ⟨record, there⟩
      show (memory'.record? number).isSome = true
      rw [kept number record there]
      rfl

/-- The state gives a reference up, and with it every copy of the pointer. -/
theorem release
    (represents : state.Represents scene valuation machine twin)
    (given : state.release? reference = some state')
    (opens : machine.memory.Opens (valuation reference) number)
    (sound : memory'.Sound scene) (follows : machine.memory.Follows memory')
    (stack : memory'.stack = machine.memory.stack)
    (regions : memory'.regions = machine.memory.regions)
    (records : ∀ other, memory'.record? other =
      if number = other then none else machine.memory.record? other) :
    state'.Represents scene valuation { machine with memory := memory' } twin := by
  simp only [release?, List.contains_iff_mem] at given
  split at given
  case isFalse => cases given
  case isTrue held =>
    cases given
    have lasts {value : AbstractValue} {word : Word} (other : value.reference ≠ reference)
        (describes : (state.reading scene valuation machine.memory).Describes value word) :
        Interpretation.Describes
          ⟨scene, memory', valuation, state.references.erase reference⟩ value word :=
      represents.tracks.describes_released held opens rfl follows rfl rfl records other describes
    refine represents.weaken sound stack represents.zero ?_ ?_ ?_ ?_
    · intro name word describes
      simp only [register, RegisterFile.read_map]
      split
      case isTrue => exact Interpretation.describes_uninitialized _ word
      case isFalse other => exact lasts other describes
    · exact fun byte small => state.stack.byteAt_breakUpWhere _ small
    · intro byte small value spilled
      rw [state.stack.slotOf_breakUpWhere _ small] at spilled
      split at spilled
      case isTrue =>
        rw [StackSlot.breakUp_spill] at spilled
        cases spilled
      case isFalse isKept =>
        refine ⟨value, spilled, fun word describes => lasts ?_ describes⟩
        rw [spilled, Option.any_some, beq_iff_eq] at isKept
        exact isKept
    · exact represents.tracks.release represents.sound.regions held opens regions rfl rfl records

end AbstractState.Represents

end PacketFilter
