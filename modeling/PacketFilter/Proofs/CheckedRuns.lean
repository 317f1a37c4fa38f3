import PacketFilter.Proofs.Entering

/-!
# Runs beside their checks

A run is followed by the check of the path that it takes: every operation is
checked in the state that the checks so far have come to, and carried out by
the machine, and the state goes along the edge that the machine takes.  There
always is such an edge.  As long as no pointer has been tested for null by its
low half, the state there describes the machine.

So whatever is then demanded of an access holds of the run.  For the packet
this says that the range proved for a pointer, on whichever path and through
whichever copies, keeps every access within the packet.  After a test of half
a pointer it need not: the machine may be on the edge of the other outcome.
-/

namespace PacketFilter

/-- The operation is not a branch, or is one that the machine takes. -/
def Machine.outcome (machine : Machine) : Operation → Bool
  | .branch width comparison left right =>
    Execution.holds width comparison (machine.register left) (machine.operand right)
  | _ => true

/-- What is known on the edge along which a program goes on. -/
def Course.onward? (course : Course) (state : AbstractState) (outcome : Bool) :
    Option AbstractState :=
  match course with
  | .next | .jump => some state
  | .branch taken? fall? => Edges.followed? ⟨taken?, fall?⟩ outcome
  | .exit => none

/-- A machine in the middle of a run, and what the check of its path has come to. -/
structure CheckedRun where
  machine : Machine
  focus : Focus

namespace CheckedRun

/-- Nothing is known of a machine that starts but what holds at entry. -/
def start (memory : Memory) : CheckedRun where
  machine := .start memory
  focus := { state := .entry }

/-- The operation at hand passes its check, and the program goes on after it. -/
structure Passes (setting : Setting) (setup : Setup) (run : CheckedRun) (operation : Operation)
    (focus : Focus) (course : Course) (machine : Machine) : Prop where
  decoded : setup.code.operation? run.machine.position = some operation
  passed : transfer setting run.focus operation = .ok (focus, course)
  moves : (Execution.step setup).run run.machine = (.ok none, machine)

/-- One step, along the edge that the machine takes.  The identities handed out elsewhere, on other
paths, are not used again. -/
def step? (setting : Setting) (setup : Setup) (run : CheckedRun) (elsewhere : Nat) :
    Option CheckedRun :=
  match setup.code.operation? run.machine.position with
  | none => none
  | some operation =>
    match transfer setting run.focus operation, (Execution.step setup).run run.machine with
    | .ok (focus, course), (.ok none, machine) =>
      (course.onward? focus.state (run.machine.outcome operation)).map fun state =>
        ⟨machine, { focus with state, lastIdentity := focus.lastIdentity + elsewhere }⟩
    | _, _ => none

/-- The run after one step for every number in the list. -/
def after? (setting : Setting) (setup : Setup) (run : CheckedRun) (elsewhere : List Nat) :
    Option CheckedRun :=
  elsewhere.foldlM (step? setting setup) run

/-- The operation at hand does not test half of a pointer that may be null. -/
def looksWhole (setup : Setup) (run : CheckedRun) : Bool :=
  (setup.code.operation? run.machine.position).all fun operation => !run.focus.testsHalf operation

/-- None of the steps that a run is followed tests half of a pointer that may be null. -/
def staysWhole (setting : Setting) (setup : Setup) : List Nat → CheckedRun → Bool
  | [], _ => true
  | first :: rest, run =>
    run.looksWhole setup && (run.step? setting setup first).all (staysWhole setting setup rest)

variable {setting : Setting} {setup : Setup} {run next : CheckedRun} {operation : Operation}
variable {focus : Focus} {course : Course} {machine : Machine} {elsewhere : Nat}

theorem Passes.step?_eq (passes : run.Passes setting setup operation focus course machine) :
    run.step? setting setup elsewhere =
      (course.onward? focus.state (run.machine.outcome operation)).map fun state =>
        ⟨machine, { focus with state, lastIdentity := focus.lastIdentity + elsewhere }⟩ := by
  simp only [step?, passes.decoded, passes.passed, passes.moves]

/-- Where there is a step, an operation has passed its check. -/
theorem passes_of_step? (found : run.step? setting setup elsewhere = some next) :
    ∃ operation focus course machine, run.Passes setting setup operation focus course machine := by
  simp only [step?] at found
  split at found
  case h_1 => cases found
  case h_2 operation decoded =>
    split at found
    case h_1 focus course machine passed moves =>
      exact ⟨operation, focus, course, machine, decoded, passed, moves⟩
    case h_2 => cases found

theorem Passes.whole
    (passes : run.Passes setting setup operation focus course machine)
    (whole : run.looksWhole setup = true) :
    run.focus.testsHalf operation = false := by
  simpa [looksWhole, passes.decoded] using whole

end CheckedRun

/-! ## Single steps -/

/-- Of the operations, only jumps, branches and exits go elsewhere than to the next. -/
theorem transfer_straight
    {setting : Setting} {focus focus' : Focus} {operation : Operation} {course : Course}
    (straight : operation.isStraight = true)
    (passed : transfer setting focus operation = .ok (focus', course)) :
    course = .next := by
  cases operation with
  | jump => cases straight
  | branch width comparison left right => cases straight
  | exit => cases straight
  | loadConstant destination word =>
      cases passed
      rfl
  | _ =>
      rcases Checked.bind_eq_ok.mp passed with ⟨after, _, made⟩
      cases made
      rfl

theorem Execution.kept_of_jump
    {setup : Setup} {instruction : Instruction} {machine machine' : Machine} {done : Unit}
    (jumps : (jump setup instruction).run machine = (.ok done, machine')) :
    machine'.registers = machine.registers ∧ machine'.memory = machine.memory := by
  simp only [jump, Stateful.run_bind, Stateful.run_get] at jumps
  split at jumps
  · cases jumps
    exact ⟨rfl, rfl⟩
  · cases jumps

/-- Jumps and branches leave registers and memory alone. -/
theorem Execution.kept_of_bent
    {setup : Setup} {instruction : Instruction} {operation : Operation} {machine machine' : Machine}
    (bent : operation.isStraight = false)
    (moves : (perform setup instruction operation).run machine = (.ok none, machine')) :
    machine'.registers = machine.registers ∧ machine'.memory = machine.memory := by
  cases operation with
  | exit => cases moves
  | jump =>
      simp only [perform, Stateful.run_bind, Stateful.run_get] at moves
      split at moves
      case h_1 jumps =>
        cases moves
        exact kept_of_jump jumps
      case h_2 => cases moves
  | branch width comparison left right =>
      simp only [perform, Stateful.run_bind, Stateful.run_get, run_read, run_operand,
        Stateful.run_ite] at moves
      split at moves
      case isTrue =>
        split at moves
        case h_1 jumps =>
          cases moves
          exact kept_of_jump jumps
        case h_2 => cases moves
      case isFalse =>
        cases moves
        exact ⟨rfl, rfl⟩
  | _ => cases bent

theorem Course.within_of_onward
    {course : Course} {state edge : AbstractState} {outcome : Bool} {last : Nat}
    (within : state.Within last) (edges : course.edges.Within last)
    (goes : edge ∈ course.onward? state outcome) :
    edge.Within last := by
  cases course with
  | next =>
      cases goes
      exact within
  | jump =>
      cases goes
      exact within
  | branch taken? fall? =>
      cases outcome with
      | true => exact edges.taken edge goes
      | false => exact edges.fall edge goes
  | exit => cases goes

/-- A test for null has both edges, whatever of the pointer it looks at. -/
theorem onward_of_testsHalf
    {setting : Setting} {focus focus' : Focus} {operation : Operation} {course : Course}
    (half : focus.testsHalf operation = true)
    (passed : transfer setting focus operation = .ok (focus', course)) (outcome : Bool) :
    ∃ edge, edge ∈ course.onward? focus'.state outcome := by
  unfold Focus.testsHalf at half
  split at half
  case h_2 => cases half
  case h_1 comparison left right =>
    rcases Checked.bind_eq_ok.mp passed with ⟨edges, branches, made⟩
    cases made
    cases branches_of_checkBranch branches with
    | scalars compared leftScalar rightScalar => simp [compared, leftScalar, rightScalar] at half
    | nullCheck _ _ checked =>
        rcases Option.bind_eq_some_iff.mp checked with ⟨pointer, _, checked⟩
        split at checked
        case h_1 =>
          cases checked
          cases outcome <;> exact ⟨_, rfl⟩
        case h_2 =>
          cases checked
          cases outcome <;> exact ⟨_, rfl⟩
        case h_3 => cases checked
    | packetEnd _ whole _ => cases whole
    | pointers => cases outcome <;> exact ⟨_, rfl⟩

namespace CheckedRun

/-- What is known describes the machine, under some reading of the identities handed out so far. -/
structure Sound (run : CheckedRun) (scene : Scene) : Prop where
  represents : ∃ (valuation : Nat → Word) (twin : Bytes),
    run.focus.state.Represents scene valuation run.machine twin
  within : run.focus.state.Within run.focus.lastIdentity

variable {scene : Scene} {memory : Memory} {setup : Setup} {run next : CheckedRun}
variable {operation : Operation} {focus : Focus} {course : Course} {machine : Machine}

theorem start_sound
    (sound : memory.Sound scene) (closed : ∀ number, memory.record? number = none) :
    (start memory).Sound scene where
  represents := ⟨_, memory.stack, AbstractState.entry_represents sound rfl closed⟩
  within := AbstractState.entry_within 0

/-- There is an edge that goes with the machine, and what is known there describes it. -/
theorem Passes.describes
    (passes : run.Passes scene.setting setup operation focus course machine)
    (sound : run.Sound scene) (whole : run.focus.testsHalf operation = false)
    (roomy : scene.Roomy) (maps : setup.maps = scene.maps)
    (attach : setup.attach = scene.setting.attach) :
    ∃ edge ∈ course.onward? focus.state (run.machine.outcome operation),
      ∃ (valuation : Nat → Word) (twin : Bytes),
        edge.Represents scene valuation machine twin := by
  rcases sound.represents with ⟨valuation, twin, represents⟩
  rcases Option.bind_eq_some_iff.mp passes.decoded with ⟨instruction, fetched, decoded⟩
  have moves := passes.moves
  rw [Execution.run_step run.machine fetched passes.decoded] at moves
  let counted : Machine := { run.machine with steps := run.machine.steps + 1 }
  have represents' : run.focus.state.Represents scene valuation counted twin :=
    represents.moved rfl rfl
  cases straight : operation.isStraight with
  | true =>
      cases transfer_straight straight passes.passed
      rcases perform_comes represents' roomy sound.within maps attach decoded whole
        passes.passed trivial with
        ⟨state, valuation', machine', twin', returns, listed, described⟩ |
          ⟨code, returns, _⟩ | ⟨⟨address, size, fails, _⟩, _⟩
      · cases moves.symm.trans returns.here
        rcases Prod.mk.inj (List.mem_singleton.mp listed) with ⟨_, rfl⟩
        exact ⟨_, rfl, valuation', twin', described⟩
      · cases moves.symm.trans returns.here
      · cases moves.symm.trans fails
  | false =>
      rcases Execution.kept_of_bent straight moves with ⟨registers, kept⟩
      have passed := passes.passed
      cases operation with
      | jump =>
          cases passed
          exact ⟨_, rfl, valuation, twin, represents'.moved registers kept⟩
      | branch width comparison left right =>
          rcases Checked.bind_eq_ok.mp passed with ⟨edges, branches, made⟩
          cases made
          rcases branch_sound represents' whole branches with ⟨edge, taken, described⟩
          exact ⟨edge, taken, valuation, twin, described.moved registers kept⟩
      | exit => cases moves
      | _ => cases straight

/-- There is an edge that goes with the machine, also when half a pointer is tested. -/
theorem Sound.goes
    {elsewhere : Nat}
    (sound : run.Sound scene) (roomy : scene.Roomy) (maps : setup.maps = scene.maps)
    (attach : setup.attach = scene.setting.attach)
    (passes : run.Passes scene.setting setup operation focus course machine) :
    ∃ next, run.step? scene.setting setup elsewhere = some next ∧ next.machine = machine := by
  have edge : ∃ edge, edge ∈ course.onward? focus.state (run.machine.outcome operation) := by
    cases half : run.focus.testsHalf operation with
    | true => exact onward_of_testsHalf half passes.passed _
    | false =>
        rcases passes.describes sound half roomy maps attach with ⟨edge, goes, _⟩
        exact ⟨edge, goes⟩
  rcases edge with ⟨edge, goes⟩
  exact ⟨_, passes.step?_eq.trans (congrArg _ goes), rfl⟩

theorem Sound.step
    {elsewhere : Nat}
    (sound : run.Sound scene) (roomy : scene.Roomy) (maps : setup.maps = scene.maps)
    (attach : setup.attach = scene.setting.attach) (whole : run.looksWhole setup = true)
    (found : run.step? scene.setting setup elsewhere = some next) :
    next.Sound scene := by
  rcases passes_of_step? found with ⟨operation, focus, course, machine, passes⟩
  rcases passes.describes sound (passes.whole whole) roomy maps attach with
    ⟨edge, goes, represents⟩
  rcases transfer_grows sound.within passes.passed with ⟨grows, edges⟩
  have within := Course.within_of_onward grows.within edges goes
  cases found.symm.trans (passes.step?_eq.trans (congrArg _ goes))
  exact ⟨represents, within.mono (Nat.le_add_right ..)⟩

/-- However many steps a run is followed, what is known describes the machine, unless half a pointer
has been tested. -/
theorem Sound.after
    (roomy : scene.Roomy) (maps : setup.maps = scene.maps)
    (attach : setup.attach = scene.setting.attach) (elsewhere : List Nat) :
    ∀ {run : CheckedRun}, run.Sound scene →
      run.staysWhole scene.setting setup elsewhere = true →
        run.after? scene.setting setup elsewhere = some next → next.Sound scene := by
  induction elsewhere with
  | nil =>
      intro run sound _ reached
      cases reached
      exact sound
  | cons first rest continues =>
      intro run sound whole reached
      rcases Option.bind_eq_some_iff.mp reached with ⟨between, found, onward⟩
      rw [staysWhole, found, Bool.and_eq_true] at whole
      exact continues (sound.step roomy maps attach whole.1 found) whole.2 onward

end CheckedRun

/-! ## Accesses to the packet -/

/-- The bytes of an access lie in a packet of the given size, and can be loaded and stored. -/
structure Memory.ServesPacket (memory : Memory) (size : Nat) (address : Word) (length : Nat) :
    Prop where
  inside : ∃ place, RegionAddress.Names address RegionAddress.packet place ∧ place + length ≤ size
  loads : (memory.load? address length).isSome
  stores : ∀ value, (memory.store? address length value).isSome

namespace CheckedRun

variable {scene : Scene} {memory : Memory} {setup : Setup} {run : CheckedRun}

/-- An access through a packet pointer that passes its check lies in the packet that was handed
in. -/
theorem Sound.servesPacket
    {base : RegisterName} {size : AccessSize} {offset : Int}
    (sound : run.Sound scene) (isPacket : (run.focus.state.register base).kind = .packet)
    (near : offset.natAbs < pointerOffsetLimit)
    (passed : checkPacketAccess (run.focus.state.register base) offset size.bytes = .ok ()) :
    run.machine.memory.ServesPacket scene.packet.size
      (run.machine.register base + BitVec.ofInt 64 offset) size.bytes := by
  rcases sound.represents with ⟨valuation, twin, represents⟩
  rcases names_packet represents.sound (represents.registers base) isPacket size.bytes_pos
    (size.bytes_le.trans_lt (by decide)) near passed with ⟨place, names, inside⟩
  refine ⟨⟨place, names, represents.sound.packetSize ▸ inside⟩, ?_, fun value => ?_⟩
  · rw [Memory.load?_packet names, Bytes.read?_of_inside inside]
    rfl
  · rw [Memory.store?_packet value names, Memory.putWord?, if_pos (Bytes.covers_iff.mpr inside)]
    rfl

/--
A run is followed by its check for as long as its operations pass: there always
is the edge that it takes.  Wherever it stands, a load or a store through a
packet pointer that passes the check against the proved range lies in the
packet and is carried out, for every packet, every code and any number of
steps, unless half of a pointer has been tested for null on the way.  The
stack holds a frame, as it does unless it is set up smaller; else the packet
has to end before what an access beneath the stack would reach.
-/
theorem packetAccess_sound
    {elsewhere : List Nat}
    (sound : memory.Sound scene) (closed : ∀ number, memory.record? number = none)
    (roomy : scene.Roomy) (maps : setup.maps = scene.maps)
    (attach : setup.attach = scene.setting.attach)
    (whole : (start memory).staysWhole scene.setting setup elsewhere = true)
    (reached : (start memory).after? scene.setting setup elsewhere = some run) :
    (∀ operation focus course machine,
        run.Passes scene.setting setup operation focus course machine →
          ∀ more, ∃ next, run.step? scene.setting setup more = some next ∧
            next.machine = machine) ∧
      ∀ (base : RegisterName) (size : AccessSize) (offset : Int16),
        (run.focus.state.register base).kind = .packet →
          checkPacketAccess (run.focus.state.register base) offset.toInt size.bytes = .ok () →
            run.machine.memory.ServesPacket scene.packet.size
              (run.machine.register base + BitVec.ofInt 64 offset.toInt) size.bytes := by
  have followed : run.Sound scene :=
    Sound.after roomy maps attach elsewhere (start_sound sound closed) whole reached
  constructor
  · exact fun operation focus course machine passes more => followed.goes roomy maps attach passes
  · intro base size offset isPacket passed
    have near : offset.toInt.natAbs < pointerOffsetLimit :=
      Instruction.offset_near ⟨0, 0, 0, offset, 0⟩
    exact followed.servesPacket isPacket near passed

end CheckedRun

/-- Move a copy of the packet pointer by a byte of the packet, find that four more are there from a
comparison with the end on the left, and go on with the pointer from a slot of the frame. -/
def boundedSetup : Setup where
  code := #[⟨0x79, 2, 1, 0, 0⟩, ⟨0x79, 3, 1, 8, 0⟩, ⟨0xbf, 4, 2, 0, 0⟩, ⟨0x07, 4, 0, 0, 1⟩,
    ⟨0x2d, 4, 3, 8, 0⟩, ⟨0x71, 5, 2, 0, 0⟩, ⟨0x0f, 2, 5, 0, 0⟩, ⟨0x7b, 10, 2, -8, 0⟩,
    ⟨0x07, 2, 0, 0, 4⟩, ⟨0xad, 3, 2, 3, 0⟩, ⟨0x79, 6, 10, -8, 0⟩, ⟨0x61, 7, 6, 0, 0⟩,
    ⟨0x72, 6, 0, 3, 1⟩, ⟨0xb7, 0, 0, 0, 2⟩, ⟨0x95, 0, 0, 0, 0⟩]
  maps := []
  attach := .ingress
  clock := .still 0
  budget := 64

/-- A packet of six bytes, the first of which is two. -/
def shortMemory : Memory where
  packet := #[2, 0, 0, 0, 0, 0]
  scratch := Array.replicate ContextField.scratch.size 0
  metadata := {}
  stack := Array.replicate 512 0
  store := {}

theorem shortMemory_sound :
    shortMemory.Sound ⟨⟨.ingress, #[]⟩, [], shortMemory.packet, 512⟩ where
  packetSize := rfl
  packetKept _ := rfl
  scratchSize := Array.size_replicate
  metadata := ⟨by decide, by decide, by decide⟩
  stackSize := Array.size_replicate
  store := Store.forWorkers_wellFormed 1
  maps index schema declared := by cases declared
  regions := by decide
  cells _ listed := by cases Array.not_mem_empty _ listed
  numbers _ listed := by cases Array.not_mem_empty _ listed
  records number record held := by cases held

/-- The last four bytes of the packet are within reach of the pointer that came from the frame. -/
theorem packetAccess_sound_last :
    ∃ run, (CheckedRun.start shortMemory).after? ⟨.ingress, #[]⟩ boundedSetup
          (List.replicate 11 0) = some run ∧
      run.machine.register 6 = RegionAddress.make RegionAddress.packet 2 ∧
        run.machine.memory.ServesPacket 6 (run.machine.register 6) 4 := by
  have reaches : ((CheckedRun.start shortMemory).after? ⟨.ingress, #[]⟩ boundedSetup
      (List.replicate 11 0)).any (fun run =>
        run.machine.register 6 == RegionAddress.make RegionAddress.packet 2 &&
          decide ((run.focus.state.register 6).kind = .packet) &&
            decide (checkPacketAccess (run.focus.state.register 6) 0 4 = .ok ())) = true := by
    decide +kernel
  rcases Option.any_eq_true _ _ |>.mp reaches with ⟨run, reached, known⟩
  simp only [Bool.and_eq_true, beq_iff_eq, decide_eq_true_eq] at known
  rcases known with ⟨⟨address, isPacket⟩, passed⟩
  have serves := (CheckedRun.packetAccess_sound shortMemory_sound (fun number => rfl)
    (.inl (show 512 ≤ 512 % 2 ^ 32 by decide)) rfl rfl (by decide +kernel) reached).2 6 .word 0
    isPacket passed
  rw [show BitVec.ofInt 64 (Int16.toInt 0) = 0#64 from rfl, BitVec.add_zero] at serves
  exact ⟨run, reached, address, serves⟩

/-- Look up a number that is there, test the low half of its address for null, and add what is left
of the address in the high half to a packet pointer with a range of four bytes. -/
def halfTestedSetup : Setup where
  code := #[⟨0x79, 6, 1, 0, 0⟩, ⟨0x79, 7, 1, 8, 0⟩, ⟨0x62, 10, 0, -4, 0⟩, ⟨0x18, 1, 1, 0, 0⟩,
    ⟨0, 0, 0, 0, 0⟩, ⟨0xbf, 2, 10, 0, 0⟩, ⟨0x07, 2, 0, 0, -4⟩, ⟨0x85, 0, 0, 0, 1⟩,
    ⟨0x16, 0, 0, 2, 0⟩, ⟨0xb7, 0, 0, 0, 2⟩, ⟨0x95, 0, 0, 0, 0⟩, ⟨0x77, 0, 0, 0, 32⟩,
    ⟨0xbf, 8, 6, 0, 0⟩, ⟨0x07, 8, 0, 0, 4⟩, ⟨0x2d, 8, 7, -6, 0⟩, ⟨0x0f, 6, 0, 0, 0⟩,
    ⟨0x61, 0, 6, 0, 0⟩, ⟨0xb7, 0, 0, 0, 2⟩, ⟨0x95, 0, 0, 0, 0⟩]
  maps := [0]
  attach := .ingress
  clock := .still 0
  budget := 64

/-- A store with one number. -/
def numberStore : Store :=
  ((Store.forWorkers 1).create "m" (.array 8 1)).2

/-- A packet of six bytes beside one number. -/
def numberMemory : Memory :=
  { shortMemory with packet := #[1, 2, 3, 4, 5, 6], store := numberStore }

/-- A program that handles packets beside one array, and the packet in memory. -/
def numberScene : Scene :=
  ⟨⟨.ingress, #[.array 8 1]⟩, [0], numberMemory.packet, 512⟩

theorem numberMemory_sound : numberMemory.Sound numberScene where
  packetSize := rfl
  packetKept _ := rfl
  scratchSize := Array.size_replicate
  metadata := ⟨by decide, by decide, by decide⟩
  stackSize := Array.size_replicate
  store := ((Store.forWorkers_wellFormed 1).create "m" _).1
  maps index schema declared := by
    have only : index = 0 := Nat.lt_one_iff.mp (Array.getElem?_eq_some_iff.mp declared).1
    subst only
    cases declared
    have there : (numberStore.map? 0).any (fun map => map.schema == .array 8 1) = true := by
      decide +kernel
    rcases Option.any_eq_true _ _ |>.mp there with ⟨map, found, same⟩
    exact ⟨0, map, rfl, found, beq_iff_eq.mp same⟩
  regions := by decide
  cells _ listed := by cases Array.not_mem_empty _ listed
  numbers _ listed := by cases Array.not_mem_empty _ listed
  records number record held := by cases held

/-- An accepted load of the first four bytes, believed to be in range, is one of four bytes at the
fifth. -/
theorem packetAccess_misses_halfTested :
    numberMemory.Sound numberScene ∧
      ∃ run, (CheckedRun.start numberMemory).after? numberScene.setting halfTestedSetup
            (List.replicate 13 0) = some run ∧
        run.machine.position = 16 ∧ (run.focus.state.register 6).kind = .packet ∧
          checkPacketAccess (run.focus.state.register 6) 0 4 = .ok () ∧
            ¬ run.machine.memory.ServesPacket 6 (run.machine.register 6) 4 := by
  have reaches : ((CheckedRun.start numberMemory).after? numberScene.setting halfTestedSetup
      (List.replicate 13 0)).any (fun run =>
        decide (run.machine.position = 16) &&
          decide ((run.focus.state.register 6).kind = .packet) &&
            decide (checkPacketAccess (run.focus.state.register 6) 0 4 = .ok ()) &&
              (run.machine.memory.load? (run.machine.register 6) 4).isNone) = true := by
    decide +kernel
  rcases Option.any_eq_true _ _ |>.mp reaches with ⟨run, reached, known⟩
  simp only [Bool.and_eq_true, decide_eq_true_eq] at known
  rcases known with ⟨⟨⟨position, isPacket⟩, passed⟩, missing⟩
  refine ⟨numberMemory_sound, run, reached, position, isPacket, passed, fun serves => ?_⟩
  have loads := serves.loads
  rw [Option.isNone_iff_eq_none.mp missing] at loads
  cases loads

end PacketFilter
