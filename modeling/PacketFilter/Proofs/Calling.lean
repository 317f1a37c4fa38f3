import PacketFilter.Proofs.Arguments
import PacketFilter.Proofs.Prototypes
import PacketFilter.Proofs.Records

/-!
# Calls

A helper whose arguments met its prototype returns a word that the value of
the check describes.  It does so alike with either stack; only memory that it
cannot read, for want of a frame on the stack, makes it fail.
-/

namespace PacketFilter

namespace Execution

variable {α β : Type}

/-- The action comes to one result with either stack. -/
structure Returns (action : Execution α) (machine : Machine) (twin : Bytes) (result : α)
    (machine' : Machine) (twin' : Bytes) : Prop where
  here : action.run machine = (.ok result, machine')
  there : action.run (machine.withStack twin) = (.ok result, machine'.withStack twin')

/-- With either stack the action fails at the same access and has changed nothing. -/
def Fails (action : Execution α) (machine : Machine) (twin : Bytes) : Prop :=
  ∃ address size,
    action.run machine = (.error (.outOfBounds machine.position address size), machine) ∧
      action.run (machine.withStack twin) =
        (.error (.outOfBounds machine.position address size), machine.withStack twin)

end Execution

/-- What a helper comes to.  The value is what the check knows of the word returned. -/
inductive Answers (scene : Scene) (machine : Machine) (twin : Bytes) (action : Execution Word)
    (state : AbstractState) (value : AbstractValue) : Prop
  | word (valuation : Nat → Word) (result : Word) (machine' : Machine)
      (returns : action.Returns machine twin result machine' twin)
      (represents : state.Represents scene valuation machine' twin)
      (describes : (state.reading scene valuation machine'.memory).Describes value result)
  | miss (fails : action.Fails machine twin) (missing : ¬ scene.HoldsFrame)

namespace Answers

variable {α : Type} {scene : Scene} {machine : Machine} {twin : Bytes}
variable {action : Execution Word} {state : AbstractState} {value : AbstractValue}

/-- An action that runs like another. -/
theorem congr
    {action' : Execution Word}
    (answers : Answers scene machine twin action' state value)
    (here : action.run machine = action'.run machine)
    (there : action.run (machine.withStack twin) = action'.run (machine.withStack twin)) :
    Answers scene machine twin action state value := by
  cases answers with
  | word valuation result machine' returns represents describes =>
      exact .word valuation result machine' ⟨here.trans returns.here, there.trans returns.there⟩
        represents describes
  | miss fails missing =>
      rcases fails with ⟨address, size, first, second⟩
      exact .miss ⟨address, size, here.trans first, there.trans second⟩ missing

theorem read
    {next : Word → Execution Word} (name : RegisterName)
    (answers : Answers scene machine twin (next (machine.register name)) state value) :
    Answers scene machine twin (Execution.read name >>= next) state value :=
  answers.congr rfl rfl

theorem mapOf
    {setup : Setup} {word : Word} {schema : Schema} {id : MapId} {map : Map}
    {next : MapId × Map → Execution Word}
    (leads : LeadsTo setup machine.memory word schema id map)
    (answers : Answers scene machine twin (next (id, map)) state value) :
    Answers scene machine twin (Execution.mapOf setup word >>= next) state value := by
  have there : (Execution.mapOf setup word).run (machine.withStack twin) =
      (.ok (id, map), machine.withStack twin) := run_mapOf leads.withStack
  apply answers.congr
  · rw [Stateful.run_bind, run_mapOf leads]
  · rw [Stateful.run_bind, there]

theorem readBytes
    {address : Word} {size : Nat} {next : Bytes → Execution Word}
    (readable :
      Reads machine.memory twin address size ∨ Misses scene machine.memory twin address size)
    (answers : ∀ bytes, machine.memory.read? address size = some bytes →
      Answers scene machine twin (next bytes) state value) :
    Answers scene machine twin (Execution.readBytes address size >>= next) state value := by
  rcases readable with ⟨bytes, here, there⟩ | ⟨here, there, missing⟩
  · apply (answers bytes here).congr
    · rw [Stateful.run_bind, Execution.run_readBytes, here]
    · rw [Stateful.run_bind, Execution.run_readBytes, Machine.withStack_memory, there]
  · refine .miss ⟨address, size, ?_, ?_⟩ missing
    · rw [Stateful.run_bind, Execution.run_readBytes, here]
    · rw [Stateful.run_bind, Execution.run_readBytes, Machine.withStack_memory, there]
      rfl

end Answers

section

variable {scene : Scene} {valuation : Nat → Word} {machine : Machine} {twin : Bytes}
variable {focus : Focus} {setup : Setup} {arguments : CallArguments} {schema : Schema}
variable {id : MapId} {map : Map} {helper : Helper}

theorem handle_argument
    (represents : focus.state.Represents scene valuation machine twin)
    (maps : setup.maps = scene.maps) (handle : focus.HasHandle scene.setting helper schema) :
    ∃ id map, LeadsTo setup machine.memory (machine.register .first) schema id map ∧
      scene.maps[(focus.state.register .first).mapIndex]? = some id :=
  handle_leads represents.sound maps (represents.registers .first) handle.kind handle.declared

/-- The helpers that take a key take no ring buffer. -/
theorem ne_ringBuffer_of_keyed
    {kind : MapKind}
    (allowed : kind ∈ Helper.keyedKinds ∨ kind ∈ Helper.deletableKinds) :
    kind ≠ .ringBuffer := by
  rintro rfl
  revert allowed
  decide

/-- The key that a helper is given. -/
theorem key_argument
    {register : Nat}
    (represents : focus.state.Represents scene valuation machine twin) (roomy : scene.Roomy)
    (leads : LeadsTo setup machine.memory (machine.register .first) schema id map)
    (keyed : schema.kind ≠ .ringBuffer)
    (passed : checkHelperMemory scene.setting focus register (focus.state.register .second)
      schema.keySize = .ok ()) :
    Reads machine.memory twin (machine.register .second) map.schema.keySize ∨
      Misses scene machine.memory twin (machine.register .second) map.schema.keySize := by
  have sizes := Schema.keySize_le leads.wellFormed.schema
  rw [leads.schema] at sizes ⊢
  have limit : Schema.sizeLimit < 2 ^ 62 := by decide
  exact readable_sound represents roomy (represents.registers .second) (sizes.1 keyed)
    (sizes.2.trans_lt limit) passed

/-- The value that a helper is given. -/
theorem value_argument
    {register : Nat}
    (represents : focus.state.Represents scene valuation machine twin) (roomy : scene.Roomy)
    (leads : LeadsTo setup machine.memory (machine.register .first) schema id map)
    (passed : checkHelperMemory scene.setting focus register (focus.state.register .third)
      schema.valueSize = .ok ()) :
    Reads machine.memory twin (machine.register .third) map.schema.valueSize ∨
      Misses scene machine.memory twin (machine.register .third) map.schema.valueSize := by
  have sizes := Schema.valueSize_le leads.wellFormed.schema
  rw [leads.schema] at sizes ⊢
  have limit : Schema.sizeLimit < 2 ^ 62 := by decide
  exact readable_sound represents roomy (represents.registers .third) sizes.1
    (sizes.2.trans_lt limit) passed

/-- A helper that leaves a scalar and changes nothing but the contents of maps. -/
theorem answers_scalar
    {action : Execution Word} {memory' : Memory} {bounds : Bounds} (result : Word)
    (represents : focus.state.Represents scene valuation machine twin)
    (proceeds : Memory.Proceeds scene machine.memory memory')
    (returns : action.Returns machine twin result { machine with memory := memory' } twin)
    (member : result ∈ bounds) :
    Answers scene machine twin action focus.state (.scalar bounds) :=
  .word valuation result { machine with memory := memory' } returns (represents.proceed proceeds)
    (Interpretation.describes_scalar member)

theorem callMapDelete_sound
    (represents : focus.state.Represents scene valuation machine twin) (roomy : scene.Roomy)
    (maps : setup.maps = scene.maps) (accepts : focus.Accepts scene.setting .mapDelete arguments) :
    Answers scene machine twin (Execution.callMapDelete setup) focus.state .unknownScalar := by
  rcases accepts.mapDelete with ⟨schema, handle, readable, _⟩
  rcases handle_argument represents maps handle with ⟨id, map, leads, _⟩
  have keyed := ne_ringBuffer_of_keyed (.inr handle.allowed)
  apply Answers.read .first
  apply Answers.mapOf leads
  apply Answers.read .second
  apply Answers.readBytes (key_argument represents roomy leads keyed readable)
  intro key _
  have kept := represents.sound.store.onMap (MapAction.Keeps.delete key) id
  exact answers_scalar _ represents (represents.sound.proceeds_store kept) ⟨rfl, rfl⟩
    (Bounds.mem_unknown _)

theorem callMapUpdate_sound
    (represents : focus.state.Represents scene valuation machine twin) (roomy : scene.Roomy)
    (maps : setup.maps = scene.maps) (accepts : focus.Accepts scene.setting .mapUpdate arguments) :
    Answers scene machine twin (Execution.callMapUpdate setup) focus.state .unknownScalar := by
  rcases accepts.mapUpdate with ⟨schema, handle, readable, readable', _⟩
  rcases handle_argument represents maps handle with ⟨id, map, leads, _⟩
  have keyed := ne_ringBuffer_of_keyed (.inl handle.allowed)
  apply Answers.read .first
  apply Answers.mapOf leads
  apply Answers.read .second
  apply Answers.readBytes (key_argument represents roomy leads keyed readable)
  intro key _
  apply Answers.read .third
  apply Answers.readBytes (value_argument represents roomy leads readable')
  intro value _
  apply Answers.read .fourth
  split
  case h_1 =>
    exact answers_scalar _ represents (.refl represents.sound) ⟨rfl, rfl⟩ (Bounds.mem_unknown _)
  case h_2 mode _ =>
    have kept := represents.sound.store.onMap
      (MapAction.Keeps.updateFromWorker key value mode machine.memory.metadata.worker) id
    exact answers_scalar _ represents (represents.sound.proceeds_store kept) ⟨rfl, rfl⟩
      (Bounds.mem_unknown _)

theorem callRedirect_sound
    (represents : focus.state.Represents scene valuation machine twin)
    (permitted : setup.attach.allowsRedirect = true)
    (accepts : focus.Accepts scene.setting .redirect arguments) :
    Answers scene machine twin (Execution.callRedirect setup) focus.state
      (.scalar (.ofInterval 0 4)) := by
  have flags := (represents.registers .second).eq_constant accepts.redirect.1
  let target := (machine.register .first).low32.toNat
  have run (machine : Machine) (flags : machine.register .second = 0) :
      (Execution.callRedirect setup).run machine =
        (.ok (BitVec.ofNat 64 4),
          { machine with redirectTarget? := some (machine.register .first).low32.toNat }) := by
    simp only [Execution.callRedirect, permitted, Bool.not_true, Bool.false_eq_true, if_false,
      Stateful.run_bind, Execution.run_read, flags, ne_eq, not_true_eq_false, Stateful.run_modify,
      Stateful.run_pure, Verdict.code]
  refine .word valuation (BitVec.ofNat 64 4) { machine with redirectTarget? := some target }
    ⟨run machine flags, run (machine.withStack twin) flags⟩ (represents.moved rfl rfl)
    (Interpretation.describes_scalar (Bounds.ofInterval_mem (by decide) (by decide)))

theorem callDigest_sound
    (represents : focus.state.Represents scene valuation machine twin) (roomy : scene.Roomy)
    (accepts : focus.Accepts scene.setting .digest arguments) :
    Answers scene machine twin Execution.callDigest focus.state (.scalar (.ofWidth 4)) := by
  rcases accepts.digest with ⟨word, constant, least, most, readable, _⟩
  have size := (represents.registers .second).eq_constant constant
  have limit : Helper.digestLimit < 2 ^ 62 := by decide
  apply Answers.read .first
  apply Answers.read .second
  rw [size, if_neg (by omega)]
  apply Answers.readBytes (readable_sound represents roomy (represents.registers .first)
    (by omega) (by omega) readable)
  intro bytes _
  apply answers_scalar _ represents (.refl represents.sound) ⟨rfl, rfl⟩
  apply Bounds.ofWidth_mem
  have short := (Digest.ofBytes bytes.toList).toBitVec.isLt
  rw [BitVec.zeroExtend, BitVec.toNat_setWidth]
  omega

theorem ringOf_answers
    {next : MapId → Execution Word} {value : AbstractValue} {state : AbstractState}
    (leads : LeadsTo setup machine.memory (machine.register .first) schema id map)
    (allowed : schema.kind ∈ [MapKind.ringBuffer])
    (answers : Answers scene machine twin (next id) state value) :
    Answers scene machine twin
      (Execution.ringOf setup helper (machine.register .first) >>= next) state value := by
  have ringed : map.schema.kind = .ringBuffer := by
    rw [leads.schema]
    exact List.mem_singleton.mp allowed
  have run (machine' : Machine)
      (leads : LeadsTo setup machine'.memory (machine.register .first) schema id map) :
      (Execution.ringOf setup helper (machine.register .first)).run machine' =
        (.ok id, machine') := by
    simp only [Execution.ringOf, Stateful.run_bind, run_mapOf leads,
      leads.wellFormed.ring_isSome ringed, if_true, Stateful.run_pure]
  apply answers.congr
  · rw [Stateful.run_bind, run machine leads]
  · rw [Stateful.run_bind, run (machine.withStack twin) leads.withStack]

theorem callRingOutput_sound
    (represents : focus.state.Represents scene valuation machine twin) (roomy : scene.Roomy)
    (maps : setup.maps = scene.maps) (accepts : focus.Accepts scene.setting .ringOutput arguments) :
    Answers scene machine twin (Execution.callRingOutput setup) focus.state .unknownScalar := by
  rcases accepts.ringOutput with ⟨schema, word, handle, constant, least, most, readable, _⟩
  rcases handle_argument represents maps handle with ⟨id, map, leads, _⟩
  have size := (represents.registers .third).eq_constant constant
  have sizes := Schema.valueSize_le leads.wellFormed.schema
  rw [leads.schema] at sizes
  have limit : Schema.sizeLimit < 2 ^ 62 := by decide
  apply Answers.read .first
  apply ringOf_answers leads handle.allowed
  apply Answers.read .second
  apply Answers.read .third
  rw [size]
  apply Answers.readBytes (readable_sound represents roomy (represents.registers .second)
    (by omega) (by omega) readable)
  intro data _
  have kept := represents.sound.store.onRing id
    (fun {ring} _ (wellFormed : ring.WellFormed) => wellFormed.output data)
  exact answers_scalar _ represents (represents.sound.proceeds_store kept) ⟨rfl, rfl⟩
    (Bounds.mem_unknown _)

/-! ## Map values -/

/-- A pointer that may be null and has not been moved is the word of its identity. -/
theorem Interpretation.points_base
    {reading : Interpretation} {value : AbstractValue}
    (identity : value.identity ≠ 0) (mayBeNull : value.mayBeNull = true) (offset : value.offset = 0)
    (bounds : value.bounds = .constant 0) :
    reading.Points value (reading.valuation value.identity) := by
  refine ⟨identity, ⟨0, ?_, ?_, fun _ => ⟨offset, rfl⟩⟩, fun nonNull => ?_⟩
  · rw [bounds]
    exact Bounds.mem_constant.mpr rfl
  · rw [offset]
    simp
  · rw [mayBeNull] at nonNull
    cases nonNull

theorem Interpretation.describes_mapValueOrNull
    {reading : Interpretation} {mapIndex identity : Nat}
    (handedOut : identity ≠ 0) (leads : reading.IsMapValue (.mapValueOrNull mapIndex identity)) :
    reading.Describes (.mapValueOrNull mapIndex identity) (reading.valuation identity) :=
  ⟨⟨rfl, points_base handedOut rfl rfl rfl, leads⟩, fun _ => .inl rfl,
    show (0 : Int).natAbs < pointerOffsetLimit by decide⟩

theorem Interpretation.describes_recordOrNull
    {reading : Interpretation} {size identity : Nat}
    (handedOut : identity ≠ 0) (isRecord : reading.IsRecord (.recordOrNull size identity)) :
    reading.Describes (.recordOrNull size identity) (reading.valuation identity) :=
  ⟨⟨rfl, points_base handedOut rfl rfl rfl, isRecord⟩, fun _ => .inr rfl,
    show (0 : Int).natAbs < pointerOffsetLimit by decide⟩

/-- What a lookup returns: null, or the base of a value of the map. -/
theorem answers_mapValue
    {action : Execution Word} {memory' : Memory} {mapIndex : Nat} (result : Word)
    (represents : focus.state.Represents scene valuation machine twin)
    (within : focus.state.Within focus.lastIdentity)
    (proceeds : Memory.Proceeds scene machine.memory memory')
    (returns : action.Returns machine twin result { machine with memory := memory' } twin)
    (leads : result ≠ 0 → ∃ cell : CellId, memory'.PointsTo result (.mapValue cell) ∧
      scene.maps[mapIndex]? = some cell.map) :
    Answers scene machine twin action focus.state
      (.mapValueOrNull mapIndex (focus.lastIdentity + 1)) := by
  let valuation' := Function.update valuation (focus.lastIdentity + 1) result
  have named : valuation' (focus.lastIdentity + 1) = result := Function.update_self _ _ _
  have agree : ∀ identity ≤ focus.lastIdentity, valuation' identity = valuation identity :=
    fun identity order => Function.update_of_ne (by omega) _ _
  have describes := @Interpretation.describes_mapValueOrNull
    (focus.state.reading scene valuation' memory') mapIndex (focus.lastIdentity + 1)
    (Nat.succ_ne_zero _) (fun nonNull => by
      simp only [AbstractState.reading, AbstractValue.mapValueOrNull, named] at nonNull ⊢
      exact leads nonNull)
  simp only [AbstractState.reading, named] at describes
  exact .word valuation' result { machine with memory := memory' } returns
    ((represents.revalue within agree).proceed proceeds) describes

/-- The base of the cell that a lookup found, if there is one and it can be handed out. -/
def Memory.handOut? (memory : Memory) (id : MapId) (found : Except MapError (Option Nat)) :
    Option (Word × Memory) :=
  match found with
  | .ok (some number) => memory.addMapValue? ⟨id, number⟩
  | _ => none

theorem Memory.handOut?_withStack
    (memory : Memory) (id : MapId) (found : Except MapError (Option Nat)) (stack : Bytes) :
    (memory.withStack stack).handOut? id found =
      (memory.handOut? id found).map fun handed => (handed.1, handed.2.withStack stack) := by
  match found with
  | .ok (some number) => exact memory.addRegion?_withStack (.mapValue ⟨id, number⟩) stack
  | .ok none => rfl
  | .error _ => rfl

/-- What a lookup does once the key has been read. -/
theorem run_lookup
    {key : Bytes} {store : Store} {found : Except MapError (Option Nat)}
    (machine : Machine)
    (looked : (Store.onMap id (Map.lookupCell key machine.memory.metadata.worker)).run
      machine.memory.store = (found, store)) :
    (do
      let worker := (← get).memory.metadata.worker
      match ← Execution.onStore (Store.onMap id (Map.lookupCell key worker)) with
      | .ok (some number) =>
        match (← get).memory.addMapValue? ⟨id, number⟩ with
        | some (address, memory) =>
          Execution.setMemory memory
          return address
        | none => return 0
      | _ => return 0 : Execution Word).run machine =
      let memory := { machine.memory with store }
      let handed? := memory.handOut? id found
      (.ok (handed?.elim 0 Prod.fst), { machine with memory := handed?.elim memory Prod.snd }) := by
  simp only [Stateful.run_bind, Stateful.run_get, Execution.run_onStore, looked]
  match found with
  | .ok (some number) =>
      simp only [Stateful.run_bind, Stateful.run_get, Memory.handOut?]
      cases ({ machine.memory with store } : Memory).addMapValue? ⟨id, number⟩ with
      | none => rfl
      | some handed => rfl
  | .ok none => rfl
  | .error _ => rfl

theorem callMapLookup_sound
    (represents : focus.state.Represents scene valuation machine twin) (roomy : scene.Roomy)
    (within : focus.state.Within focus.lastIdentity) (maps : setup.maps = scene.maps)
    (accepts : focus.Accepts scene.setting .mapLookup arguments) :
    Answers scene machine twin (Execution.callMapLookup setup) focus.state
      (.mapValueOrNull (focus.state.register .first).mapIndex (focus.lastIdentity + 1)) := by
  rcases accepts.mapLookup with ⟨schema, handle, readable, _⟩
  rcases handle_argument represents maps handle with ⟨id, map, leads, declared⟩
  have keyed := ne_ringBuffer_of_keyed (.inl handle.allowed)
  apply Answers.read .first
  apply Answers.mapOf leads
  apply Answers.read .second
  apply Answers.readBytes (key_argument represents roomy leads keyed readable)
  intro key _
  have sound := represents.sound
  have kept := sound.store.onMap
    (MapAction.Keeps.lookupCell key machine.memory.metadata.worker) id
  have looked := Store.run_onMap (Map.lookupCell key machine.memory.metadata.worker) leads.there
  rw [looked] at kept
  rcases found : (Map.lookupCell key machine.memory.metadata.worker).run map with ⟨result, after⟩
  rw [found] at looked kept
  let memory := { machine.memory with store := machine.memory.store.setMap id after }
  have proceeds : Memory.Proceeds scene machine.memory memory := sound.proceeds_store kept
  have here := run_lookup machine looked
  have there := run_lookup (machine.withStack twin) looked
  change _ = (Except.ok ((memory.handOut? id result).elim 0 Prod.fst),
    { machine with memory := (memory.handOut? id result).elim memory Prod.snd }) at here
  change _ = (Except.ok (((memory.withStack twin).handOut? id result).elim 0 Prod.fst),
    { machine with memory :=
        ((memory.withStack twin).handOut? id result).elim (memory.withStack twin) Prod.snd })
    at there
  rw [memory.handOut?_withStack id result twin] at there
  cases handed : memory.handOut? id result with
  | none =>
      rw [handed] at here there
      exact answers_mapValue 0 represents within proceeds ⟨here, there⟩
        fun absurdity => absurd rfl absurdity
  | some added =>
      rw [handed] at here there
      match result, found, handed with
      | .ok (some number), found, handed =>
          -- The cell that was found is one of the map's, and stays there.
          have isCell : memory.Leads (.mapValue ⟨id, number⟩) :=
            ⟨after, (Store.map?_setMap leads.there).trans (if_pos rfl),
              leads.wellFormed.lookupCell_lt found⟩
          rcases Memory.addRegion?_eq_some handed with ⟨short, address, grows⟩
          rcases proceeds.sound.push isCell short with ⟨grown, points⟩
          rw [← address, ← grows] at points
          rw [← grows] at grown
          exact answers_mapValue added.1 represents within (proceeds.trans grown) ⟨here, there⟩
            fun _ => ⟨⟨id, number⟩, points, declared⟩
      | .ok none, _, handed => cases handed
      | .error _, _, handed => cases handed

/-! ## Records -/

/-- What a reservation does once the ring buffer is known. -/
theorem run_reserve
    {claimed? : Option (Option Reservation)} {store : Store} (machine : Machine) (id : MapId)
    (claims : (machine.memory.store.onRing id fun ring =>
      ring.reserve (machine.register .second).toNat) = (claimed?, store)) :
    (do
      let size := (← Execution.read .second).toNat
      let memory := (← get).memory
      let (result?, store) := memory.store.onRing id fun ring => ring.reserve size
      let memory := { memory with store }
      match result?.join with
      | none =>
        Execution.setMemory memory
        return 0
      | some reservation =>
        let (address?, memory) := memory.addRecord ⟨id, reservation⟩
        Execution.setMemory memory
        return address?.getD 0 : Execution Word).run machine =
      let memory := { machine.memory with store }
      match claimed?.join with
      | none => (.ok 0, { machine with memory })
      | some reservation =>
        let handed := memory.addRecord ⟨id, reservation⟩
        (.ok (handed.1.getD 0), { machine with memory := handed.2 }) := by
  simp only [Stateful.run_bind, Stateful.run_get, Execution.run_read, claims]
  cases claimed?.join with
  | none => rfl
  | some reservation => rfl

/-- What a reservation hands out: null, or the base of a record that is new. -/
inductive Memory.HandsOutRecord (before after : Memory) (size : Nat) (result : Word) : Prop
  | nothing (null : result = 0) (records : after.records = before.records)
  | one (record : OpenRecord) (pushed : after.records = before.records.push (some record))
      (points : after.PointsTo result (.record before.records.size))
      (fits : size ≤ record.reservation.length)

namespace Memory.HandsOutRecord

variable {before after : Memory} {size number : Nat} {result : Word}

theorem kept
    {record : OpenRecord}
    (hands : before.HandsOutRecord after size result)
    (there : before.record? number = some record) :
    after.record? number = some record := by
  cases hands with
  | nothing _ records => rwa [Memory.record?, records]
  | one _ pushed _ _ =>
      rw [Memory.record?_push pushed, if_neg (Nat.ne_of_lt (Memory.lt_of_record there))]
      exact there

theorem known
    (hands : before.HandsOutRecord after size result)
    (isOpen : (after.record? number).isSome = true) :
    (before.record? number).isSome = true ∨ after.Opens result number := by
  cases hands with
  | nothing _ records =>
      rw [Memory.record?, records] at isOpen
      exact .inl isOpen
  | one record pushed points _ =>
      by_cases new : number = before.records.size
      · subst new
        exact .inr ⟨points, isOpen⟩
      · rw [Memory.record?_push pushed, if_neg new] at isOpen
        exact .inl isOpen

theorem opened (hands : before.HandsOutRecord after size result) (nonNull : result ≠ 0) :
    ∃ number record, after.PointsTo result (.record number) ∧
      after.record? number = some record ∧ size ≤ record.reservation.length ∧
        before.record? number = none := by
  cases hands with
  | nothing null _ => exact absurd null nonNull
  | one record pushed points fits =>
      refine ⟨before.records.size, record, points, ?_, fits, ?_⟩
      · rw [Memory.record?_push pushed, if_pos rfl]
      · rw [Memory.record?, Array.getElem?_eq_none (Nat.le_refl _), Option.join_none]

end Memory.HandsOutRecord

/-- What a reservation returns is known as a record, or null, of a new identity. -/
theorem answers_record
    {action : Execution Word} {memory' : Memory} {size : Nat} (result : Word)
    (represents : focus.state.Represents scene valuation machine twin)
    (within : focus.state.Within focus.lastIdentity)
    (sound : memory'.Sound scene) (follows : machine.memory.Follows memory')
    (stack : memory'.stack = machine.memory.stack)
    (returns : action.Returns machine twin result { machine with memory := memory' } twin)
    (hands : machine.memory.HandsOutRecord memory' size result) :
    Answers scene machine twin action (focus.state.acquire (focus.lastIdentity + 1))
      (.recordOrNull size (focus.lastIdentity + 1)) := by
  let valuation' := Function.update valuation (focus.lastIdentity + 1) result
  have named : valuation' (focus.lastIdentity + 1) = result := Function.update_self _ _ _
  have agree : ∀ identity ≤ focus.lastIdentity, valuation' identity = valuation identity :=
    fun identity order => Function.update_of_ne (by omega) _ _
  have acquired := represents.acquire within agree sound follows stack (fun _ _ => hands.kept)
    (by
      rw [named]
      exact fun _ => hands.known)
    (by
      rw [named]
      intro nonNull
      rcases hands.opened nonNull with ⟨number, record, points, there, _, isNew⟩
      exact ⟨number, ⟨points, by rw [there]; rfl⟩, isNew⟩)
  have describes := @Interpretation.describes_recordOrNull
    ((focus.state.acquire (focus.lastIdentity + 1)).reading scene valuation' memory') size
    (focus.lastIdentity + 1) (Nat.succ_ne_zero _) (fun nonNull => by
      simp only [AbstractState.reading, AbstractValue.recordOrNull, named] at nonNull ⊢
      rcases hands.opened nonNull with ⟨number, record, points, there, fits, _⟩
      exact ⟨List.mem_append_right _ (List.mem_singleton.mpr rfl), number, record, points, there,
        fits⟩)
  simp only [AbstractState.reading, named] at describes
  exact .word valuation' result { machine with memory := memory' } returns acquired describes

theorem callRingReserve_sound
    (represents : focus.state.Represents scene valuation machine twin)
    (within : focus.state.Within focus.lastIdentity) (maps : setup.maps = scene.maps)
    (accepts : focus.Accepts scene.setting .ringReserve arguments) :
    Answers scene machine twin (Execution.callRingReserve setup)
      (focus.state.acquire (focus.lastIdentity + 1))
      (.recordOrNull arguments.constantSize (focus.lastIdentity + 1)) := by
  rcases accepts.ringReserve with ⟨schema, word, handle, constant, least, most, sized, _⟩
  rcases handle_argument represents maps handle with ⟨id, map, leads, _⟩
  have size := (represents.registers .second).eq_constant constant
  rw [← size] at most sized
  apply Answers.read .first
  apply ringOf_answers leads handle.allowed
  have kept := represents.sound.store.onRing id (fun {ring} _ (wellFormed : ring.WellFormed) =>
    wellFormed.reserve (machine.register .second).toNat)
  have result := machine.memory.store.onRing_fst id fun ring =>
    ring.reserve (machine.register .second).toNat
  rcases claims : machine.memory.store.onRing id (fun ring =>
    ring.reserve (machine.register .second).toNat) with ⟨claimed?, store⟩
  rw [claims] at kept result
  let memory := { machine.memory with store }
  have proceeds : Memory.Proceeds scene machine.memory memory :=
    represents.sound.proceeds_store kept
  have here := run_reserve machine id claims
  have there := run_reserve (machine.withStack twin) id claims
  cases claimed : claimed?.join with
  | none =>
      rw [claimed] at here there
      exact answers_record 0 represents within proceeds.sound proceeds.follows rfl ⟨here, there⟩
        (.nothing rfl rfl)
  | some reservation =>
      rw [claimed] at here there
      rcases added : memory.addRecord ⟨id, reservation⟩ with ⟨address?, memory'⟩
      change _ = (Except.ok ((memory.addRecord ⟨id, reservation⟩).1.getD 0),
        { machine with memory := (memory.addRecord ⟨id, reservation⟩).2 }) at here
      change _ = (Except.ok (((memory.withStack twin).addRecord ⟨id, reservation⟩).1.getD 0),
        { machine with memory := ((memory.withStack twin).addRecord ⟨id, reservation⟩).2 })
        at there
      rw [memory.addRecord_withStack, added] at there
      rw [added] at here
      rw [Option.join_eq_some_iff] at claimed
      subst claimed
      rcases Option.map_eq_some_iff.mp result.symm with ⟨ring, _, reserves⟩
      have length := (Ring.length_of_reserve reserves).1
      rcases kept.2 id map leads.there with ⟨map', there', same⟩
      have ringed : map'.schema.kind = .ringBuffer := by
        rw [same.schema, leads.schema]
        exact List.mem_singleton.mp handle.allowed
      have fits : reservation.length ≤ map'.schema.valueSize := by
        rw [length, same.schema, leads.schema]
        exact most
      rcases proceeds.sound.addRecord there' ringed fits added with
        ⟨sound, follows, stack, ⟨rfl, records⟩ | ⟨address, rfl, records, points⟩⟩
      · exact answers_record 0 represents within sound (proceeds.follows.trans follows) stack
          ⟨here, there⟩ (.nothing rfl records)
      · exact answers_record address represents within sound (proceeds.follows.trans follows) stack
          ⟨here, there⟩ (.one ⟨id, reservation⟩ records points (by rw [length, ← sized]))

theorem callRingComplete_sound
    {state' : AbstractState} (isDiscarded : Bool)
    (represents : focus.state.Represents scene valuation machine twin)
    (accepts : focus.Accepts scene.setting helper arguments)
    (completes : helper = .ringSubmit ∨ helper = .ringDiscard)
    (released : focus.state.release? arguments.released = some state') :
    Answers scene machine twin (Execution.callRingComplete isDiscarded) state' (.constant 0) := by
  rcases accepts.ringComplete completes with ⟨kind, checked, held, unmoved, still, named⟩
  have byKind := (represents.registers .first).byKind
  simp only [Interpretation.Matches, kind] at byKind
  rcases byKind with ⟨sameName, points, isRecord⟩
  rcases points.place with ⟨change, member, place, _⟩
  have noChange := Bounds.eq_of_constant member still
  rw [← sameName, ← named] at place
  rcases isRecord (points.nonNull checked) with ⟨_, number, record, there, opened, _⟩
  rw [← sameName, ← named] at there
  change machine.memory.PointsTo (valuation arguments.released) (.record number) at there
  change machine.memory.record? number = some record at opened
  have base : machine.register .first = valuation arguments.released := by
    rw [place, noChange, unmoved]
    simp [AbstractState.reading]
  let cleared := { machine.memory with records := machine.memory.records.setIfInBounds number none }
  have release : machine.memory.release? (machine.register .first) = some (record, cleared) := by
    rw [base]
    exact Memory.release?_of_pointsTo represents.sound.regions there opened
  have release' :
    (machine.withStack twin).memory.release? ((machine.withStack twin).register .first) =
      some (record, cleared.withStack twin) := by
    rw [Machine.withStack_register, base]
    exact @Memory.release?_of_pointsTo (machine.memory.withStack twin) _ _ _
      represents.sound.regions there opened
  have proceeds := (represents.sound.clearRecord number).complete record isDiscarded
  have run (machine' : Machine) (memory' : Memory)
      (release : machine'.memory.release? (machine'.register .first) = some (record, memory')) :
      (Execution.callRingComplete isDiscarded).run machine' =
        (.ok 0, { machine' with memory := memory'.complete record isDiscarded }) := by
    simp only [Execution.callRingComplete, Stateful.run_bind, Execution.run_read,
      Stateful.run_get, release, Execution.run_setMemory, Stateful.run_pure]
  refine .word valuation 0 { machine with memory := cleared.complete record isDiscarded }
    ⟨run machine cleared release, run (machine.withStack twin) (cleared.withStack twin) release'⟩
    (represents.release released ⟨there, by rw [opened]; rfl⟩ proceeds.sound
      ⟨rfl, rfl, fun _ _ held => held⟩ rfl rfl ?_)
    (Interpretation.describes_constant _ 0)
  exact Memory.record?_clear rfl

/-! ## Helper calls -/

theorem AbstractState.Represents.setUninitialized
    {state : AbstractState}
    (represents : state.Represents scene valuation machine twin) (names : List RegisterName) :
    (names.foldl (fun state name => state.setRegister name .uninitialized) state).Represents scene
      valuation machine twin := by
  induction names generalizing state with
  | nil => exact represents
  | cons name rest hypothesis =>
      exact hypothesis
        (represents.refineRegister name (Interpretation.describes_uninitialized _ _))

theorem callHelper_sound
    {value : AbstractValue} {released after : Focus}
    (represents : focus.state.Represents scene valuation machine twin) (roomy : scene.Roomy)
    (within : focus.state.Within focus.lastIdentity) (maps : setup.maps = scene.maps)
    (permitted : helper = .redirect → setup.attach.allowsRedirect = true)
    (accepts : focus.Accepts scene.setting helper arguments)
    (releases : focus.Releases arguments.released released)
    (called : callResult released helper.prototype.result arguments = (value, after)) :
    Answers scene machine twin (Execution.call setup helper) after.state value := by
  have unreleased (none : arguments.released = 0) : released = focus := by
    rw [none] at releases
    cases releases with
    | none => rfl
    | one stands _ => exact absurd rfl stands
  cases helper with
  | mapLookup =>
      have answers := callMapLookup_sound represents roomy within maps accepts
      rcases accepts.mapLookup with ⟨schema, _, _, rfl⟩
      cases unreleased rfl
      cases called
      exact answers
  | mapUpdate =>
      have answers := callMapUpdate_sound represents roomy maps accepts
      rcases accepts.mapUpdate with ⟨schema, _, _, _, rfl⟩
      cases unreleased rfl
      cases called
      exact answers
  | mapDelete =>
      have answers := callMapDelete_sound represents roomy maps accepts
      rcases accepts.mapDelete with ⟨schema, _, _, rfl⟩
      cases unreleased rfl
      cases called
      exact answers
  | currentTime =>
      cases accepts.currentTime
      cases unreleased rfl
      cases called
      exact answers_scalar (setup.clock _) represents (.refl represents.sound) ⟨rfl, rfl⟩
        (Bounds.mem_unknown _)
  | redirect =>
      have answers := callRedirect_sound represents (permitted rfl) accepts
      cases accepts.redirect.2
      cases unreleased rfl
      cases called
      exact answers
  | digest =>
      have answers := callDigest_sound represents roomy accepts
      rcases accepts.digest with ⟨_, _, _, _, _, none⟩
      cases unreleased none
      cases called
      exact answers
  | ringOutput =>
      have answers := callRingOutput_sound represents roomy maps accepts
      rcases accepts.ringOutput with ⟨_, _, _, _, _, _, _, none⟩
      cases unreleased none
      cases called
      exact answers
  | ringReserve =>
      have answers := callRingReserve_sound represents within maps accepts
      rcases accepts.ringReserve with ⟨_, _, _, _, _, _, _, none⟩
      cases unreleased none
      cases called
      exact answers
  | ringSubmit =>
      have named := (accepts.ringComplete (.inl rfl)).2.2
      rcases releases.given (by rw [named.2.2.2]; exact named.1) with ⟨state', given, rfl⟩
      cases called
      exact callRingComplete_sound false represents accepts (.inl rfl) given
  | ringDiscard =>
      have named := (accepts.ringComplete (.inr rfl)).2.2
      rcases releases.given (by rw [named.2.2.2]; exact named.1) with ⟨state', given, rfl⟩
      cases called
      exact callRingComplete_sound true represents accepts (.inr rfl) given
  | workerNumber =>
      cases accepts.workerNumber
      cases unreleased rfl
      cases called
      have worker := represents.sound.metadata.worker
      refine answers_scalar (BitVec.ofNat 64 machine.memory.metadata.worker) represents
        (.refl represents.sound) ⟨rfl, rfl⟩ (Bounds.ofWidth_mem ?_)
      rw [BitVec.toNat_ofNat]
      omega

/-- A call that was let through is carried out, and what is known afterwards describes the machine
once the result register has its word. -/
theorem checkCall_sound
    {immediate : Int32} {focus' : Focus}
    (represents : focus.state.Represents scene valuation machine twin) (roomy : scene.Roomy)
    (within : focus.state.Within focus.lastIdentity) (maps : setup.maps = scene.maps)
    (attach : setup.attach = scene.setting.attach)
    (passed : checkCall scene.setting focus immediate = .ok focus') :
    ∃ helper, Helper.ofImmediate? immediate = some helper ∧
      ((Execution.call setup helper).Fails machine twin ∧ ¬ scene.HoldsFrame ∨
        ∃ valuation' result machine',
          (Execution.call setup helper).Returns machine twin result machine' twin ∧
            focus'.state.Represents scene valuation'
              (machine'.setRegister RegisterName.result result) twin) := by
  rcases calls_of_checkCall passed with ⟨helper, arguments, released, value, after, calls, rfl⟩
  refine ⟨helper, calls.named, ?_⟩
  have permitted (isRedirect : helper = .redirect) : setup.attach.allowsRedirect = true := by
    rw [attach]
    exact calls.permitted isRedirect
  have represents₀ : focus.counted.state.Represents scene valuation machine twin := represents
  cases callHelper_sound represents₀ roomy within maps permitted calls.accepts calls.releases
      calls.called with
  | word valuation' result machine' returns represents describes =>
      refine .inr ⟨valuation', result, machine', returns, ?_⟩
      exact (represents.setUninitialized RegisterName.callerSaved).setRegister
        RegisterName.result describes
  | miss fails missing => exact .inl ⟨fails, missing⟩

end

end PacketFilter
