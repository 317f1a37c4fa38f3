import PacketFilter.Dispatcher
import PacketFilter.Proofs.Series

/-!
# The ledger of a dispatcher

Whoever listens to a dispatcher, and hears every call and every answer, can
keep a ledger: which program is in force and under which policy, how many
packets met with which verdict, and what the host was told.  The dispatcher
agrees with the ledger after every series of calls, and treats the next call as
the ledger says that it must.
-/

namespace PacketFilter

/-! ## Calls -/

/-- What a dispatcher is asked to do. -/
inductive DispatcherCall where
  /-- Attach a program, under the policy of the dispatcher unless another is given. -/
  | attach (program : VerifiedProgram) (policy? : Option FailurePolicy)
  | detach
  | receive (clock : Clock) (packet : Bytes) (metadata : Metadata)
  /-- Receive a packet and have the host carry out the action. -/
  | process (clock : Clock) (packet : Bytes) (metadata : Metadata)
  /-- The maps are changed by others. -/
  | change (store : Store)

/-- What a dispatcher answers to a call. -/
inductive DispatcherAnswer where
  /-- The program is in force in place of the one before. -/
  | attached (previous? : Option Attachment)
  | refused (error : AttachError)
  | detached (previous? : Option Attachment)
  | dispatched (dispatch : Dispatch)
  | changed

/-- A dispatcher with the maps of its programs and with its host. -/
structure DispatcherService where
  dispatcher : Dispatcher
  store : Store
  host : HostRecord := {}

namespace DispatcherService

/-- The answer to a call, and the dispatcher with its surroundings after it. -/
def answer : DispatcherCall → DispatcherService → DispatcherAnswer × DispatcherService
  | .attach program policy?, service =>
    let policy := policy?.getD service.dispatcher.policy
    match service.dispatcher.attach service.store program policy with
    | .error error => (.refused error, service)
    | .ok (previous?, dispatcher) => (.attached previous?, { service with dispatcher })
  | .detach, service =>
    let (previous?, dispatcher) := service.dispatcher.detach
    (.detached previous?, { service with dispatcher })
  | .receive clock packet metadata, service =>
    let (dispatch, dispatcher, store) :=
      service.dispatcher.receive clock packet metadata service.store
    (.dispatched dispatch, { service with dispatcher, store })
  | .process clock packet metadata, service =>
    let (dispatch, dispatcher, store, host) :=
      service.dispatcher.process clock packet metadata service.store service.host
    (.dispatched dispatch, { dispatcher, store, host })
  | .change store, service => (.changed, { service with store })

end DispatcherService

/-! ## Ledgers -/

/-- What calls and answers tell of a dispatcher. -/
structure PacketLedger where
  /-- The policy of attachments that do not name one. -/
  policy : FailurePolicy
  /-- The attachment in force. -/
  attachment? : Option Attachment := none
  counts : PacketCounts := {}
  /-- What the host was told to do with which packet. -/
  applied : Array (Action × Bytes) := #[]

namespace PacketLedger

def countsWith (ledger : PacketLedger) (verdict : Verdict) : PacketCounts :=
  let counts := { ledger.counts with packets := ledger.counts.packets + 1 }
  match ledger.attachment? with
  | none => { counts with withoutProgram := counts.withoutProgram + 1 }
  | some _ => counts.addVerdict verdict

/-- Enter a call with its answer. -/
def enter (ledger : PacketLedger) : DispatcherCall × DispatcherAnswer → PacketLedger
  | (.attach program policy?, .attached _) =>
    { ledger with attachment? := some ⟨program, policy?.getD ledger.policy⟩ }
  | (.detach, _) => { ledger with attachment? := none }
  | (.receive .., .dispatched dispatch) =>
    { ledger with counts := ledger.countsWith dispatch.verdict }
  | (.process .., .dispatched dispatch) =>
    { ledger with
      counts := ledger.countsWith dispatch.verdict
      applied := ledger.applied.push (dispatch.action, dispatch.packet) }
  | _ => ledger

variable {ledger : PacketLedger}

end PacketLedger

/-! ## What packets are due -/

/-- The verdict, the action and the rewritten packet that a packet is due under the attachment in
force: the program runs on the work area of the packet's worker, and a packet without a run or with
a failed one goes the way of the attachment's policy. -/
inductive PacketDue
    (engine : Engine) (areas : Array WorkArea) (clock : Clock) (packet : Bytes)
    (metadata : Metadata)
    (store : Store) : Option Attachment → Verdict → Action → Bytes → Prop
  | unattached : PacketDue engine areas clock packet metadata store none .forward .forward packet
  | stranger {attachment : Attachment} (outside : areas.size ≤ metadata.worker) :
      PacketDue engine areas clock packet metadata store (some attachment) .error
        attachment.policy.action packet
  | leaves {attachment : Attachment} {area : WorkArea} {result : RunResult} {verdict : Verdict}
      (own : areas[metadata.worker]? = some area)
      (ran : engine.run clock attachment.program { packet, metadata } area store = result)
      (ends : result.outcome = .ok verdict) :
      PacketDue engine areas clock packet metadata store (some attachment) verdict
        (.ofVerdict attachment.policy verdict) result.context.packet
  | fails {attachment : Attachment} {area : WorkArea} {result : RunResult} {fault : Fault}
      (own : areas[metadata.worker]? = some area)
      (ran : engine.run clock attachment.program { packet, metadata } area store = result)
      (ends : result.outcome = .error fault) :
      PacketDue engine areas clock packet metadata store (some attachment) .error
        attachment.policy.action result.context.packet

/-- The context keeps the verdict of a run, or an error when the run has failed. -/
theorem Engine.verdict?_run
    (engine : Engine) (clock : Clock) (program : VerifiedProgram) (context : PacketContext)
    (area : WorkArea) (store : Store) :
    (engine.run clock program context area store).context.verdict? =
      some ((engine.run clock program context area store).outcome.toOption.getD .error) := by
  unfold run
  dsimp only
  split
  case h_1 ended =>
    rw [ended]
    rfl
  case h_2 ended =>
    rw [ended]
    rfl

namespace Dispatcher

variable {dispatcher after : Dispatcher} {store store' : Store} {clock : Clock} {packet : Bytes}
variable {metadata : Metadata} {dispatch : Dispatch}

/-- Every array per worker among the maps of the program has a copy for every worker. -/
def HasCopies (dispatcher : Dispatcher) (store : Store) (program : VerifiedProgram) : Prop :=
  ∀ id ∈ program.maps, ∀ map, store.map? id = some map → ∀ copies, map.workers? = some copies →
    dispatcher.workers ≤ copies

theorem copyProblem?_eq_none_iff {id : MapId} :
    dispatcher.copyProblem? store id = none ↔
      ∀ map, store.map? id = some map → ∀ copies, map.workers? = some copies →
        dispatcher.workers ≤ copies := by
  unfold copyProblem?
  cases store.map? id with
  | none => exact iff_of_true rfl fun map absurdity => by cases absurdity
  | some map =>
      cases counted : map.workers? with
      | none =>
          refine iff_of_true ?_ fun other same copies absurdity => ?_
          · simp only [Option.bind_eq_bind, Option.bind_some, counted, Option.bind_none]
          · cases same
            cases counted.symm.trans absurdity
      | some copies =>
          simp only [Option.bind_eq_bind, Option.bind_some, counted]
          constructor
          · intro fits other same copies' counted'
            cases same
            cases counted.symm.trans counted'
            rcases Nat.lt_or_ge copies dispatcher.workers with short | enough
            · rw [if_pos short] at fits
              cases fits
            · exact enough
          · intro enough
            exact if_neg (Nat.not_lt.mpr (enough map rfl copies counted))

/-- A program is attached exactly if there are copies for every worker; then it is in force, and
nothing else has changed. -/
theorem attach_eq_ok_iff
    {program : VerifiedProgram} {policy : FailurePolicy} {previous? : Option Attachment} :
    dispatcher.attach store program policy = .ok (previous?, after) ↔
      dispatcher.HasCopies store program ∧ previous? = dispatcher.attachment? ∧
        after = { dispatcher with attachment? := some ⟨program, policy⟩ } := by
  have copied : program.maps.findSome? (dispatcher.copyProblem? store) = none ↔
      dispatcher.HasCopies store program := by
    simp only [List.findSome?_eq_none_iff, copyProblem?_eq_none_iff]
    rfl
  rw [← copied]
  unfold attach
  cases program.maps.findSome? (dispatcher.copyProblem? store) with
  | some error => exact iff_of_false (fun absurdity => by cases absurdity) fun met => by cases met.1
  | none =>
      constructor
      · intro attached
        cases attached
        exact ⟨rfl, rfl, rfl⟩
      · rintro ⟨_, rfl, rfl⟩
        rfl

/-- Between the two dispatchers only the work area of the packet's worker may have changed. -/
def SparesOthers (before after : Dispatcher) (metadata : Metadata) : Prop :=
  after.areas.size = before.areas.size ∧
    ∀ worker, worker ≠ metadata.worker → after.areas[worker]? = before.areas[worker]?

/-- What running a program for a worker gives, and what it leaves alone. -/
theorem runFor_due
    {program : VerifiedProgram} {verdict : Verdict} {packet' : Bytes}
    (ran : dispatcher.runFor clock program packet metadata store =
      (verdict, packet', after, store')) (policy : FailurePolicy) :
    PacketDue dispatcher.engine dispatcher.areas clock packet metadata store
        (some ⟨program, policy⟩) verdict (.ofVerdict policy verdict) packet' ∧
      after = { dispatcher with areas := after.areas } ∧
        dispatcher.SparesOthers after metadata := by
  unfold runFor at ran
  split at ran
  case h_1 outside =>
    cases ran
    exact ⟨.stranger (Array.getElem?_eq_none_iff.mp outside), rfl, rfl, fun _ _ => rfl⟩
  case h_2 area own =>
    let result := dispatcher.engine.run clock program { packet, metadata } area store
    have kept : result.context.verdict? = some (result.outcome.toOption.getD .error) :=
      dispatcher.engine.verdict?_run clock program { packet, metadata } area store
    simp only [Prod.mk.injEq] at ran
    rcases ran with ⟨given, rfl, rfl, rfl⟩
    refine ⟨?_, rfl, Array.size_setIfInBounds, fun worker other => ?_⟩
    · rw [kept, Option.getD_some] at given
      cases ended : result.outcome with
      | ok left =>
          rw [ended] at given
          cases given
          exact .leaves own rfl ended
      | error fault =>
          rw [ended] at given
          cases given
          exact .fails own rfl ended
    · exact Array.getElem?_setIfInBounds_ne other.symm

/-- A received packet gets what it is due, and is counted once. -/
theorem receive_due
    (received : dispatcher.receive clock packet metadata store = (dispatch, after, store')) :
    PacketDue dispatcher.engine dispatcher.areas clock packet metadata store dispatcher.attachment?
        dispatch.verdict dispatch.action dispatch.packet ∧
      dispatch.stage = .verdicted ∧
      (∀ ledger : PacketLedger, ledger.attachment? = dispatcher.attachment? →
        ledger.counts = dispatcher.counts → after.counts = ledger.countsWith dispatch.verdict) ∧
      after = { dispatcher with areas := after.areas, counts := after.counts } ∧
      dispatcher.SparesOthers after metadata := by
  unfold receive at received
  cases attached : dispatcher.attachment? with
  | none =>
      simp only [countPacket, attached] at received
      cases received
      refine ⟨.unattached, rfl, fun ledger inForce counted => ?_, rfl, rfl, fun _ _ => rfl⟩
      rw [PacketLedger.countsWith, inForce, counted]
  | some attachment =>
      rcases attachment with ⟨program, policy⟩
      simp only [countPacket, attached] at received
      generalize ran : runFor _ clock program packet metadata store = result at received
      rcases result with ⟨verdict, packet', ended, stored⟩
      cases received
      rcases runFor_due ran policy with ⟨due, kept, spared⟩
      rcases ended with ⟨engine, default, attachment?, areas, counts⟩
      simp only [Dispatcher.mk.injEq] at kept
      rcases kept with ⟨rfl, rfl, rfl, _, rfl⟩
      refine ⟨due, rfl, fun ledger inForce counted => ?_, rfl, spared⟩
      rw [PacketLedger.countsWith, inForce, counted]

end Dispatcher

/-! ## Services -/

namespace DispatcherService

/-- The service is as the ledger has it, runs the same engine and has as many workers as ever. -/
structure Agrees (engine : Engine) (workers : Nat) (ledger : PacketLedger)
    (service : DispatcherService) : Prop where
  engine : service.dispatcher.engine = engine
  workers : service.dispatcher.workers = workers
  policy : service.dispatcher.policy = ledger.policy
  inForce : service.dispatcher.attachment? = ledger.attachment?
  counted : service.dispatcher.counts = ledger.counts
  told : service.host.applied = ledger.applied

variable {engine : Engine} {workers : Nat} {ledger : PacketLedger} {service : DispatcherService}

/-- A received packet is entered in the counts; what the host is told besides is up to the call. -/
theorem Agrees.receive
    (agrees : service.Agrees engine workers ledger) {clock : Clock} {packet : Bytes}
    {metadata : Metadata} {dispatch : Dispatch} {after : Dispatcher} {store : Store}
    (received : service.dispatcher.receive clock packet metadata service.store =
      (dispatch, after, store)) (host : HostRecord) :
    Agrees engine workers
      { ledger with counts := ledger.countsWith dispatch.verdict, applied := host.applied }
      ⟨after, store, host⟩ := by
  rcases Dispatcher.receive_due received with ⟨_, _, counted, kept, spared⟩
  have counts := counted ledger agrees.inForce.symm agrees.counted.symm
  rw [kept]
  exact ⟨agrees.engine, spared.1.trans agrees.workers, agrees.policy, agrees.inForce, counts, rfl⟩

/-- The ledger still agrees when the call and its answer have been entered. -/
theorem Agrees.answer
    (agrees : service.Agrees engine workers ledger) (call : DispatcherCall) :
    Agrees engine workers (ledger.enter (call, (DispatcherService.answer call service).1))
      (DispatcherService.answer call service).2 := by
  cases call with
  | attach program policy? =>
      simp only [DispatcherService.answer]
      cases asked : service.dispatcher.attach service.store program
          (policy?.getD service.dispatcher.policy) with
      | ok attached =>
          rcases Dispatcher.attach_eq_ok_iff.mp asked with ⟨_, _, replaced⟩
          dsimp only
          rw [replaced]
          refine ⟨agrees.engine, agrees.workers, agrees.policy, ?_, agrees.counted, agrees.told⟩
          exact congrArg (fun policy => some (⟨program, policy?.getD policy⟩ : Attachment))
            agrees.policy
      | error error => exact agrees
  | detach =>
      exact ⟨agrees.engine, agrees.workers, agrees.policy, rfl, agrees.counted, agrees.told⟩
  | receive clock packet metadata =>
      simp only [DispatcherService.answer]
      cases received : service.dispatcher.receive clock packet metadata service.store with
      | mk dispatch ended =>
          have entered := agrees.receive received service.host
          rw [agrees.told] at entered
          exact entered
  | process clock packet metadata =>
      simp only [DispatcherService.answer, Dispatcher.process]
      cases received : service.dispatcher.receive clock packet metadata service.store with
      | mk dispatch ended =>
          have entered := agrees.receive received
            (service.host.apply dispatch.action dispatch.packet)
          have told : (service.host.apply dispatch.action dispatch.packet).applied =
              ledger.applied.push (dispatch.action, dispatch.packet) := by
            rw [HostRecord.apply, agrees.told]
          rw [told] at entered
          exact entered
  | change store =>
      exact ⟨agrees.engine, agrees.workers, agrees.policy, agrees.inForce, agrees.counted,
        agrees.told⟩

/-- It agrees with the ledger of all calls and answers. -/
theorem Agrees.answerAll
    (calls : List DispatcherCall) {service : DispatcherService} {ledger : PacketLedger}
    (agrees : service.Agrees engine workers ledger) :
    Agrees engine workers
      ((calls.zip (PacketFilter.answerAll DispatcherService.answer calls service).1).foldl
        PacketLedger.enter ledger)
      (PacketFilter.answerAll DispatcherService.answer calls service).2 := by
  induction calls generalizing service ledger with
  | nil => exact agrees
  | cons call later continues => exact continues (agrees.answer call)

end DispatcherService

end PacketFilter
