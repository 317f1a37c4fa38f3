import PacketFilter.Proofs.Commitments
import PacketFilter.Proofs.Stepping

/-!
# What steps do about reservations

Only four helpers touch the reservations of a run.  This module says of each what
it can come to, and of every other action that it leaves reservations alone.  So
does a step that fails, and it never fails because a reservation is open.
-/

namespace PacketFilter

/-- What a step does about reservations. -/
inductive RecordDeed where
  | idle
  /-- It takes a reservation and hands it out under an address. -/
  | opens (address : Word) (record : OpenRecord)
  /-- It takes a reservation and commits it at once. -/
  | passes (record : OpenRecord) (isDiscarded : Bool)
  /-- It commits the reservation that has been handed out under an address. -/
  | closes (address : Word) (record : OpenRecord) (isDiscarded : Bool)

/-- A call of the helper with the arguments in the registers gives the answer, and does the deed. -/
inductive Helper.Does
    (before : Memory) (argument : RegisterName → Word) (answer : Word) (after : Memory) :
    Helper → RecordDeed → Prop
  | idles {helper : Helper} (submits : helper ≠ .ringSubmit) (discards : helper ≠ .ringDiscard)
      (quiet : before.Quiet after) :
      Does before argument answer after helper .idle
  | outputs {record : OpenRecord} {data : Bytes} {store : Store}
      (queued : before.store.onRing record.map (fun ring => ring.output? data) =
        (some (some record.reservation), store))
      (stored : after = { before with store }) :
      Does before argument answer after .ringOutput (.passes record false)
  | reserves {record : OpenRecord} {store : Store}
      (claims : before.store.onRing record.map (fun ring => ring.reserve (argument .second).toNat) =
        (some (some record.reservation), store))
      (handed : { before with store }.addRecord record = (some answer, after)) :
      Does before argument answer after .ringReserve (.opens answer record)
  /-- There is no address left to hand the record out under. -/
  | drops {record : OpenRecord} {store : Store}
      (claims : before.store.onRing record.map (fun ring => ring.reserve (argument .second).toNat) =
        (some (some record.reservation), store))
      (dropped : { before with store }.addRecord record = (none, after)) :
      Does before argument answer after .ringReserve (.passes record true)
  | submits {record : OpenRecord} {released : Memory}
      (taken : before.release? (argument .first) = some (record, released))
      (committed : after = released.complete record false) :
      Does before argument answer after .ringSubmit (.closes (argument .first) record false)
  | discards {record : OpenRecord} {released : Memory}
      (taken : before.release? (argument .first) = some (record, released))
      (committed : after = released.complete record true) :
      Does before argument answer after .ringDiscard (.closes (argument .first) record true)

/-- The operation, begun with the memory and the registers, does the deed and leads to the
machine. -/
inductive Operation.Does
    (before : Memory) (argument : RegisterName → Word) (after : Machine) :
    Operation → RecordDeed → Prop
  | plain {operation : Operation} (callsNone : ∀ immediate, operation ≠ .call immediate)
      (quiet : before.Quiet after.memory) :
      Does before argument after operation .idle
  | calls {immediate : Int32} {helper : Helper} {deed : RecordDeed}
      (named : Helper.ofImmediate? immediate = some helper)
      (does : helper.Does before argument (after.register .result) after.memory deed) :
      Does before argument after (.call immediate) deed

/-- The operation ends the program with the memory as it is, or does some deed. -/
def Operation.Leads (before : Memory) (argument : RegisterName → Word) (operation : Operation) :
    Option Word → Machine → Prop
  | some _, after => after.memory = before
  | none, after => ∃ deed, operation.Does before argument after deed

/-- The step from one machine to the other does the deed. -/
def Machine.Does (setup : Setup) (before after : Machine) (deed : RecordDeed) : Prop :=
  ∃ operation, setup.code.operation? before.position = some operation ∧
    operation.Does before.memory before.register after deed

/-- A step ends the program with the memory as it is, or does some deed. -/
def Machine.Leads (setup : Setup) (before : Machine) : Option Word → Machine → Prop
  | some _, after => after.memory = before.memory
  | none, after => ∃ deed, before.Does setup after deed

namespace Execution

variable {α β : Type}

/-! ## Actions -/

/-- The action, run from the machine, comes to what is said, unless it fails; then reservations are
what they were, and are not what is wrong. -/
def Ends (action : Execution α) (machine : Machine) (post : α → Machine → Prop) : Prop :=
  match action.run machine with
  | (.ok result, after) => post result after
  | (.error fault, after) => machine.memory.Quiet after.memory ∧ fault ≠ .unreleasedReservation

/-- The action leaves the machine as it is. -/
def Still (action : Execution α) : Prop :=
  ∀ machine, action.Ends machine fun _ after => after = machine

/-- The action leaves reservations alone. -/
def Keeps (action : Execution α) : Prop :=
  ∀ machine, action.Ends machine fun _ after => machine.memory.Quiet after.memory

variable {action : Execution α} {next : α → Execution β} {machine : Machine}
variable {post : β → Machine → Prop}

theorem Ends.of_run
    {ran : Except Fault α × Machine} {post : α → Machine → Prop}
    (ends : match ran with
      | (.ok result, after) => post result after
      | (.error fault, after) => machine.memory.Quiet after.memory ∧ fault ≠ .unreleasedReservation)
    (run : action.run machine = ran) :
    action.Ends machine post := by
  rw [Ends, run]
  exact ends

theorem Ends.mono
    {said meant : α → Machine → Prop} (ends : action.Ends machine said)
    (weaker : ∀ result after, said result after → meant result after) :
    action.Ends machine meant := by
  rw [Ends] at ends ⊢
  generalize action.run machine = ran at ends ⊢
  rcases ran with ⟨fault | result, after⟩
  · exact ends
  · exact weaker result after ends

theorem Ends.bind
    {between : α → Machine → Prop} (first : action.Ends machine between)
    (quiet : ∀ result after, between result after → machine.memory.Quiet after.memory)
    (later : ∀ result after, between result after → (next result).Ends after post) :
    (action >>= next).Ends machine post := by
  rw [Ends] at first ⊢
  rw [Stateful.run_bind]
  generalize action.run machine = ran at first ⊢
  rcases ran with ⟨fault | result, after⟩
  · exact first
  · have ends := later result after first
    rw [Ends] at ends
    dsimp only
    generalize (next result).run after = ran at ends ⊢
    rcases ran with ⟨fault | result', after'⟩
    · exact ⟨(quiet result after first).trans ends.1, ends.2⟩
    · exact ends

theorem ends_get_bind
    {next : Machine → Execution β} (later : (next machine).Ends machine post) :
    (get >>= next : Execution β).Ends machine post := by
  rw [Ends, Stateful.run_bind, Stateful.run_get]
  exact later

theorem ends_read_bind
    {next : Word → Execution β} {name : RegisterName}
    (later : (next (machine.register name)).Ends machine post) :
    (read name >>= next).Ends machine post := by
  rw [Ends, Stateful.run_bind, run_read]
  exact later

theorem Still.bind
    (first : action.Still) (later : ∀ result, (next result).Ends machine post) :
    (action >>= next).Ends machine post := by
  refine Ends.bind (first machine) (fun result after same => ?_) fun result after same => ?_
  · rw [same]
    exact .refl machine.memory
  · rw [same]
    exact later result

theorem Still.keeps (still : action.Still) : action.Keeps :=
  fun machine => (still machine).mono fun result after same => by
    rw [same]
    exact .refl machine.memory

theorem Keeps.bind (first : action.Keeps) (later : ∀ result, (next result).Keeps) :
    (action >>= next).Keeps := by
  intro machine
  refine (first machine).bind (fun _ _ quiet => quiet) fun result after quiet => ?_
  exact (later result after).mono fun _ _ quiet' => quiet.trans quiet'

theorem Keeps.get_bind
    {next : Machine → Execution β}
    (later : ∀ machine, (next machine).Ends machine fun _ after =>
      machine.memory.Quiet after.memory) :
    Keeps (get >>= next) :=
  fun machine => ends_get_bind (later machine)

/-! ## Parts of instructions -/

theorem still_pure (result : α) : (pure result : Execution α).Still :=
  fun _ => rfl

theorem still_read (name : RegisterName) : (read name).Still :=
  fun _ => rfl

theorem still_operand (right : Operand) : (operand right).Still :=
  fun _ => rfl

theorem keeps_write (name : RegisterName) (value : Word) : (write name value).Keeps :=
  fun machine => .refl machine.memory

theorem keeps_moveTo (position : Nat) : (moveTo position).Keeps :=
  fun machine => .refl machine.memory

theorem still_violation (address : Word) (size : Nat) :
    (violation address size : Execution α).Still :=
  fun machine => ⟨.refl machine.memory, Fault.noConfusion⟩

theorem still_disallow (helper : Helper) : (disallow helper : Execution α).Still :=
  fun machine => ⟨.refl machine.memory, Fault.noConfusion⟩

theorem still_readBytes (address : Word) (size : Nat) : (readBytes address size).Still := by
  intro machine
  rw [Ends, run_readBytes]
  cases machine.memory.read? address size with
  | some bytes => rfl
  | none => exact ⟨.refl machine.memory, Fault.noConfusion⟩

theorem still_load (address : Word) (size : Nat) : (load address size).Still := by
  intro machine
  rw [Ends, run_load]
  cases machine.memory.load? address size with
  | some value => rfl
  | none => exact ⟨.refl machine.memory, Fault.noConfusion⟩

theorem keeps_store (address : Word) (size : Nat) (value : Word) :
    (store address size value).Keeps := by
  intro machine
  rw [Ends, run_store]
  cases stored : machine.memory.store? address size value with
  | some memory => exact .store stored
  | none => exact ⟨.refl machine.memory, Fault.noConfusion⟩

theorem keeps_update (address : Word) (size : Nat) (change : Word → Word) :
    (update address size change).Keeps := by
  intro machine
  rw [Ends, run_update]
  cases changed : machine.memory.update? address size change with
  | some updated => exact .update changed
  | none => exact ⟨.refl machine.memory, Fault.noConfusion⟩

theorem keeps_atomic
    (operation : AtomicOperation) (size : AccessSize) (base source : RegisterName) (offset : Int) :
    (atomic operation size base source offset).Keeps := by
  refine (still_read source).keeps.bind fun operand => ?_
  refine (still_read RegisterName.result).keeps.bind fun expected => ?_
  refine (still_read base).keeps.bind fun address => ?_
  refine (keeps_update _ _ _).bind fun old => ?_
  cases operation with
  | combine combination fetches =>
      cases fetches
      · exact (still_pure ()).keeps
      · exact keeps_write source old
  | exchange => exact keeps_write source old
  | compareExchange => exact keeps_write RegisterName.result old

/-- An operation on a map of the store. -/
theorem keeps_onMap {operation : MapAction α} (spares : operation.SparesRing) (id : MapId) :
    (onStore (Store.onMap id operation)).Keeps :=
  fun machine => ⟨rfl, rfl, .onMap spares machine.memory.store id⟩

end Execution

/-- The address at which a region starts is made of its number. -/
theorem RegionAddress.eq_make_of_start {address : Word} (start : offset address = 0) :
    address = make (region address) 0 := by
  rw [offset_eq_mod] at start
  apply BitVec.eq_of_toNat_eq
  rw [toNat_make, region_eq_div]
  omega

namespace Memory

variable {memory : Memory}

/-- A region that is handed out changes what its own address stands for. -/
theorem recordNumber?_push
    (short : RegionAddress.firstDynamic + memory.regions.size < RegionAddress.mapHandle)
    (region : Region) (address : Word) :
    (memory.push region).recordNumber? address =
      if address = RegionAddress.make (RegionAddress.firstDynamic + memory.regions.size) 0 then
        region.recordNumber?
      else memory.recordNumber? address := by
  have limit : RegionAddress.mapHandle < 2 ^ 32 := by decide
  split
  case isTrue here =>
    have names := here ▸ @RegionAddress.names_make
      (RegionAddress.firstDynamic + memory.regions.size) 0 (by omega) (by omega)
    rw [recordNumber?, if_neg (not_not_intro names.offset), names.region, region?_dynamic, push,
      Array.getElem?_push_size]
    rfl
  case isFalse elsewhere =>
    rw [recordNumber?, recordNumber?]
    split
    case isTrue => rfl
    case isFalse start =>
      have differ : RegionAddress.region address ≠
          RegionAddress.firstDynamic + memory.regions.size := by
        intro same
        exact elsewhere (same ▸ RegionAddress.eq_make_of_start (not_not.mp start))
      rw [region?, region?]
      split
      case isTrue => rfl
      case isFalse => rw [push, Array.getElem?_push, if_neg (by omega)]

theorem recordNumber?_of_fresh
    (short : RegionAddress.firstDynamic + memory.regions.size < RegionAddress.mapHandle) :
    memory.recordNumber? (RegionAddress.make (RegionAddress.firstDynamic + memory.regions.size) 0) =
      none := by
  have limit : RegionAddress.mapHandle < 2 ^ 32 := by decide
  have names := @RegionAddress.names_make
    (RegionAddress.firstDynamic + memory.regions.size) 0 (by omega) (by omega)
  rw [recordNumber?, names.region, region?_dynamic, Array.getElem?_eq_none (Nat.le_refl _)]
  exact ite_self _

/-- A map value that is handed out. -/
theorem Quiet.addMapValue
    {cell : CellId} {address : Word} {memory' : Memory}
    (handed : memory.addMapValue? cell = some (address, memory')) : memory.Quiet memory' := by
  rcases addRegion?_eq_some handed with ⟨short, _, rfl⟩
  refine ⟨rfl, funext fun other => ?_, .refl memory.store⟩
  rw [recordNumber?_push short]
  split
  case isTrue here => rw [here, recordNumber?_of_fresh short, Region.recordNumber?]
  case isFalse => rfl

end Memory

namespace Execution

variable (setup : Setup)

/-! ## Helpers -/

theorem still_mapOf (handle : Word) : (mapOf setup handle).Still := by
  unfold mapOf
  split
  · exact still_violation handle 0
  · split
    · exact still_violation handle 0
    · intro machine
      refine ends_get_bind ?_
      split
      · exact still_violation handle 0 machine
      · exact still_pure _ machine

theorem still_ringOf (helper : Helper) (handle : Word) : (ringOf setup helper handle).Still := by
  intro machine
  refine (still_mapOf setup handle).bind fun found => ?_
  rcases found with ⟨id, map⟩
  dsimp only
  split
  · exact still_pure id machine
  · exact still_disallow helper machine

theorem keeps_callMapLookup : (callMapLookup setup).Keeps := by
  refine (still_read .first).keeps.bind fun handle => ?_
  refine (still_mapOf setup handle).keeps.bind fun found => ?_
  refine (still_read .second).keeps.bind fun address => ?_
  refine (still_readBytes address _).keeps.bind fun key => ?_
  refine Keeps.get_bind fun machine => ?_
  refine (keeps_onMap (.lookupCell key _) _).bind (fun result => ?_) machine
  split
  · refine Keeps.get_bind fun machine => ?_
    split
    case h_1 address memory handed => exact Memory.Quiet.addMapValue handed
    case h_2 => exact .refl machine.memory
  · exact (still_pure 0).keeps

theorem keeps_callMapUpdate : (callMapUpdate setup).Keeps := by
  refine (still_read .first).keeps.bind fun handle => ?_
  refine (still_mapOf setup handle).keeps.bind fun found => ?_
  refine (still_read .second).keeps.bind fun address => ?_
  refine (still_readBytes address _).keeps.bind fun key => ?_
  refine (still_read .third).keeps.bind fun address => ?_
  refine (still_readBytes address _).keeps.bind fun value => ?_
  refine (still_read .fourth).keeps.bind fun mode => ?_
  split
  · exact (still_pure invalidModeCode).keeps
  · refine Keeps.get_bind fun machine => ?_
    exact (keeps_onMap (.updateFromWorker key value _ _) _).bind
      (fun result => (still_pure _).keeps) machine

theorem keeps_callMapDelete : (callMapDelete setup).Keeps := by
  refine (still_read .first).keeps.bind fun handle => ?_
  refine (still_mapOf setup handle).keeps.bind fun found => ?_
  refine (still_read .second).keeps.bind fun address => ?_
  refine (still_readBytes address _).keeps.bind fun key => ?_
  exact (keeps_onMap (.delete key) _).bind fun result => (still_pure _).keeps

theorem keeps_callRedirect : (callRedirect setup).Keeps := by
  unfold callRedirect
  split
  · exact (still_disallow .redirect).keeps
  · refine (still_read .second).keeps.bind fun flags => ?_
    split
    · exact (still_pure _).keeps
    · exact fun machine => .refl machine.memory

theorem keeps_callDigest : callDigest.Keeps := by
  refine (still_read .first).keeps.bind fun address => ?_
  refine (still_read .second).keeps.bind fun size => ?_
  dsimp only
  split
  · exact (still_violation address _).keeps
  · exact (still_readBytes address _).keeps.bind fun bytes => (still_pure _).keeps

/-- The call comes to one of the deeds of the helper. -/
def Deals (action : Execution Word) (helper : Helper) (machine : Machine) : Prop :=
  action.Ends machine fun answer after =>
    ∃ deed, helper.Does machine.memory machine.register answer after.memory deed

theorem Keeps.deals
    {action : Execution Word} {helper : Helper} (keeps : action.Keeps)
    (submits : helper ≠ .ringSubmit) (discards : helper ≠ .ringDiscard) (machine : Machine) :
    action.Deals helper machine :=
  (keeps machine).mono fun _ _ quiet => ⟨.idle, .idles submits discards quiet⟩

theorem deals_callRingOutput (machine : Machine) :
    (callRingOutput setup).Deals .ringOutput machine := by
  refine (still_read .first).bind fun handle => ?_
  refine (still_ringOf setup _ handle).bind fun id => ?_
  refine (still_read .second).bind fun address => ?_
  refine (still_read .third).bind fun size => ?_
  refine (still_readBytes address _).bind fun data => ?_
  refine ends_get_bind ?_
  cases accepted : (machine.memory.store.onRing id fun ring => ring.output? data).1.join with
  | some reservation =>
      have queued : machine.memory.store.onRing id (fun ring => ring.output? data) =
          (some (some reservation), _) := Prod.ext (Option.join_eq_some_iff.mp accepted) rfl
      exact ⟨.passes ⟨id, reservation⟩ false, .outputs queued rfl⟩
  | none =>
      have same := Store.SameRings.onRing_of_refused (fun _ => Ring.outline_output_of_none) accepted
      exact ⟨.idle, .idles Helper.noConfusion Helper.noConfusion ⟨rfl, rfl, same⟩⟩

theorem deals_callRingReserve (machine : Machine) :
    (callRingReserve setup).Deals .ringReserve machine := by
  refine (still_read .first).bind fun handle => ?_
  refine (still_ringOf setup _ handle).bind fun id => ?_
  have refuses := @Store.SameRings.onRing_of_refused machine.memory.store id
    (fun ring => ring.reserve (machine.register .second).toNat)
    (fun _ => Ring.outline_reserve_of_none)
  rcases claims : machine.memory.store.onRing id
    (fun ring => ring.reserve (machine.register .second).toNat) with ⟨claimed?, store⟩
  rw [claims] at refuses
  refine .of_run ?_ (run_reserve machine id claims)
  rcases claimed? with _ | _ | reservation
  · exact ⟨.idle, .idles Helper.noConfusion Helper.noConfusion ⟨rfl, rfl, refuses rfl⟩⟩
  · exact ⟨.idle, .idles Helper.noConfusion Helper.noConfusion ⟨rfl, rfl, refuses rfl⟩⟩
  · rcases handed : Memory.addRecord { machine.memory with store } ⟨id, reservation⟩ with
      ⟨_ | address, memory⟩
    · refine ⟨.passes ⟨id, reservation⟩ true, ?_⟩
      simp only [handed]
      exact .drops claims handed
    · refine ⟨.opens address ⟨id, reservation⟩, ?_⟩
      simp only [handed]
      exact .reserves claims handed

theorem deals_callRingComplete
    (isDiscarded : Bool) (machine : Machine) :
    (callRingComplete isDiscarded).Deals (if isDiscarded then .ringDiscard else .ringSubmit)
      machine := by
  refine ends_read_bind (ends_get_bind ?_)
  split
  case h_1 => exact ⟨.refl machine.memory, Fault.noConfusion⟩
  case h_2 record memory taken =>
    cases isDiscarded
    · exact ⟨_, .submits taken rfl⟩
    · exact ⟨_, .discards taken rfl⟩

theorem deals_call (helper : Helper) (machine : Machine) :
    (call setup helper).Deals helper machine := by
  cases helper with
  | mapLookup =>
      exact (keeps_callMapLookup setup).deals Helper.noConfusion Helper.noConfusion machine
  | mapUpdate =>
      exact (keeps_callMapUpdate setup).deals Helper.noConfusion Helper.noConfusion machine
  | mapDelete =>
      exact (keeps_callMapDelete setup).deals Helper.noConfusion Helper.noConfusion machine
  | currentTime =>
      have keeps : (call setup .currentTime).Keeps :=
        Keeps.get_bind fun machine => (still_pure (setup.clock machine.steps)).keeps machine
      exact keeps.deals Helper.noConfusion Helper.noConfusion machine
  | redirect => exact (keeps_callRedirect setup).deals Helper.noConfusion Helper.noConfusion machine
  | digest => exact keeps_callDigest.deals Helper.noConfusion Helper.noConfusion machine
  | ringOutput => exact deals_callRingOutput setup machine
  | ringReserve => exact deals_callRingReserve setup machine
  | ringSubmit => exact deals_callRingComplete false machine
  | ringDiscard => exact deals_callRingComplete true machine
  | workerNumber => exact ⟨_, .idles Helper.noConfusion Helper.noConfusion (.refl machine.memory)⟩

/-! ## Steps -/

theorem keeps_jump (instruction : Instruction) : (jump setup instruction).Keeps := by
  refine Keeps.get_bind fun machine => ?_
  split
  · exact .refl machine.memory
  · exact ⟨.refl machine.memory, Fault.noConfusion⟩

theorem Ends.bind_write
    {action : Execution Word} {name : RegisterName} {post : Unit → Machine → Prop}
    (ends : action.Ends machine fun result after => post () (after.setRegister name result)) :
    (action >>= write name).Ends machine post := by
  rw [Ends] at ends ⊢
  rw [Stateful.run_bind]
  generalize action.run machine = ran at ends ⊢
  rcases ran with ⟨fault | result, after⟩
  · exact ends
  · exact ends

theorem keeps_effect
    {operation : Operation} (callsNone : ∀ immediate, operation ≠ .call immediate) :
    (effect setup operation).Keeps := by
  cases operation with
  | compute width arithmetic destination right =>
      refine (still_read destination).keeps.bind fun left => ?_
      refine (still_operand right).keeps.bind fun right => ?_
      exact keeps_write destination _
  | convertOrder order bits destination =>
      exact (still_read destination).keeps.bind fun value => keeps_write destination _
  | load size destination base offset =>
      refine (still_read base).keeps.bind fun address => ?_
      exact (still_load _ _).keeps.bind fun value => keeps_write destination value
  | store size base offset value =>
      refine (still_read base).keeps.bind fun address => ?_
      exact (still_operand value).keeps.bind fun value => keeps_store _ _ value
  | atomic operation size base source offset => exact keeps_atomic operation size base source offset
  | loadConstant destination value => exact keeps_write destination value
  | loadMap destination index => exact keeps_write destination _
  | call immediate => exact absurd rfl (callsNone immediate)
  | jump => exact (still_pure ()).keeps
  | branch width comparison left right => exact (still_pure ()).keeps
  | exit => exact (still_pure ()).keeps

theorem ends_effect (operation : Operation) (machine : Machine) :
    (effect setup operation).Ends machine fun _ after =>
      ∃ deed, operation.Does machine.memory machine.register after deed := by
  by_cases callsNone : ∀ immediate, operation ≠ .call immediate
  · exact (keeps_effect setup callsNone machine).mono fun _ after quiet =>
      ⟨.idle, .plain callsNone quiet⟩
  · simp only [not_forall, not_not] at callsNone
    rcases callsNone with ⟨immediate, rfl⟩
    simp only [effect]
    split
    case h_1 helper named =>
      refine Ends.bind_write ((deals_call setup helper machine).mono fun answer after deals => ?_)
      rcases deals with ⟨deed, does⟩
      refine ⟨deed, .calls named ?_⟩
      rw [Machine.register_setRegister, if_pos rfl]
      exact does
    case h_2 => exact ⟨.refl machine.memory, Fault.noConfusion⟩

theorem run_onward (instruction : Instruction) (action : Execution Unit) (machine : Machine) :
    (onward instruction action).run machine =
      match action.run machine with
      | (.ok _, after) =>
        (.ok none, { after with position := machine.position + instruction.span })
      | (.error fault, after) => (.error fault, after) := by
  simp only [onward, Stateful.run_bind, Stateful.run_get, run_moveTo, Stateful.run_pure]
  rcases action.run machine with ⟨_ | _, _⟩ <;> rfl

/-- An instruction that calls no helper and goes on. -/
theorem Keeps.leads
    {action : Execution Unit} {operation : Operation} (keeps : action.Keeps)
    (callsNone : ∀ immediate, operation ≠ .call immediate) (machine : Machine) :
    (action >>= fun _ => pure none).Ends machine
      (operation.Leads machine.memory machine.register) :=
  (keeps machine).bind (fun _ _ quiet => quiet) fun _ _ quiet => ⟨.idle, .plain callsNone quiet⟩

theorem ends_perform (instruction : Instruction) (operation : Operation) (machine : Machine) :
    (perform setup instruction operation).Ends machine
      (operation.Leads machine.memory machine.register) := by
  by_cases straight : operation.isStraight = true
  · have ends := ends_effect setup operation machine
    rw [perform_straight setup instruction straight, Ends, run_onward]
    rw [Ends] at ends
    generalize (effect setup operation).run machine = ran at ends ⊢
    rcases ran with ⟨fault | _, after⟩
    · exact ends
    · rcases ends with ⟨deed, does⟩
      refine ⟨deed, ?_⟩
      cases does with
      | plain callsNone quiet => exact .plain callsNone quiet
      | calls named does => exact .calls named does
  · cases operation with
    | jump =>
        exact ends_get_bind ((keeps_jump setup instruction).leads (fun _ => Operation.noConfusion)
          machine)
    | branch width comparison left right =>
        refine ends_get_bind ((still_read left).bind fun left => ?_)
        refine (still_operand right).bind fun right => ?_
        split
        · exact (keeps_jump setup instruction).leads (fun _ => Operation.noConfusion) machine
        · exact (keeps_moveTo _).leads (fun _ => Operation.noConfusion) machine
    | exit => exact rfl
    | _ => exact absurd rfl straight

theorem ends_step (machine : Machine) :
    (step setup).Ends machine (machine.Leads setup) := by
  rw [Ends]
  simp only [step, Stateful.run_bind, Stateful.run_modify, Stateful.run_get]
  split
  case h_1 result after ran =>
    split at ran
    case h_1 instruction operation _ fetched =>
      have ends := ends_perform setup instruction operation
        { machine with steps := machine.steps + 1 }
      rw [Ends, ran] at ends
      cases result with
      | some code => exact ends
      | none =>
          rcases ends with ⟨deed, does⟩
          exact ⟨deed, operation, fetched, does⟩
    case h_2 => cases ran
  case h_2 fault after ran =>
    split at ran
    case h_1 instruction operation _ _ =>
      have ends := ends_perform setup instruction operation
        { machine with steps := machine.steps + 1 }
      rw [Ends, ran] at ends
      exact ends
    case h_2 =>
      cases ran
      exact ⟨.refl machine.memory, Fault.noConfusion⟩

end Execution

end PacketFilter
