import PacketFilter.Proofs.BalancerControl
import PacketFilter.Proofs.BalancerProgram
import PacketFilter.Proofs.Series

/-!
# A load balancer at work

Whatever a balancer is asked after it has been set up and its program has been
let through, control plane and packets in any order, it is in a state of
`BalancerState` and answers as that state does.  In particular its program
sends every packet where its control plane says.
-/

namespace PacketFilter

namespace LoadBalancer

/-- Serve a call with the balancer and its program. -/
def serve (program : VerifiedProgram) :
    BalancerCall → LoadBalancer × Store → BalancerAnswer × (LoadBalancer × Store)
  | .add backend, (balancer, store) =>
    let (result, store) := (balancer.addBackend backend).run store
    (.added (result.map Prod.fst), (result.toOption.elim balancer Prod.snd, store))
  | .remove number, (balancer, store) =>
    let (result, store) := (balancer.removeBackend number).run store
    (.removed (result.map Prod.fst), (result.toOption.elim balancer Prod.snd, store))
  | .run clock context area, (balancer, store) =>
    let result := ({} : Engine).run clock program context area store
    (.sent result.outcome result.context.packet, (balancer, result.store))
  | .connection flow, (balancer, store) =>
    let (result, store) := (balancer.connection flow).run store
    (.connection result, (balancer, store))
  | .select flow, (balancer, store) =>
    let (result, store) := (balancer.selectBackend flow).run store
    (.selected result, (balancer, store))

/-- A balancer and its store after some calls. -/
def after (balancer : LoadBalancer) (program : VerifiedProgram) (store : Store)
    (calls : List BalancerCall) : LoadBalancer × Store :=
  (answerAll (serve program) calls (balancer, store)).2

/-- The maps of a balancer, in the order of the program. -/
def maps (balancer : LoadBalancer) : List MapId :=
  [balancer.connections.map, balancer.backendEntries.map, balancer.slots.map]

/-- The program is that of the balancer, on the maps of the balancer. -/
def Installed (balancer : LoadBalancer) (program : VerifiedProgram) : Prop :=
  Application.Installed balancer.program balancer.maps program

variable {maxConnections : Nat} {balancer : LoadBalancer} {store begun : Store} {base : MapId}
variable {program : VerifiedProgram} {elapsed : String} {state : BalancerState}

/-- A program that has been loaded for a new balancer is that of the balancer, on its maps. -/
theorem installed_of_load
    (created : (create maxConnections).run store = (.ok balancer, begun))
    (loaded : balancer.load begun elapsed = .ok program) : balancer.Installed program := by
  rcases shown_of_create created with ⟨rfl, _, named⟩
  rw [load] at loaded
  rw [Installed, show maps _ = List.range' store.maps.size (schemas maxConnections).length from rfl]
  refine Application.installed_of_load (fun source written => ?_) named loaded
  rw [LoadBalancer.program, Application.program] at written
  split at written
  · cases written
  · cases written
    rfl

/-- Every balancer has a program. -/
theorem program_written (balancer : LoadBalancer) : ∃ source, balancer.program = .ok source := by
  have assembles : assembly.finish.toOption.isSome := by decide +kernel
  rw [LoadBalancer.program, Application.program]
  rcases made : assembly.finish with error | code
  · rw [made] at assembles
    cases assembles
  · exact ⟨_, rfl⟩

/-- Once its maps have been created there is a balancer, and a program for it. -/
theorem exists_installed
    (creates :
      ((ApplicationAction.createMaps (schemas maxConnections)).run store).1.toOption.isSome) :
    ∃ balancer begun program, (create maxConnections).run store = (.ok balancer, begun) ∧
      balancer.Installed program := by
  rcases made : (ApplicationAction.createMaps (schemas maxConnections)).run store with
    ⟨error | maps, between⟩
  · rw [made] at creates
    cases creates
  · rcases run_create made with ⟨begun, created, _⟩
    let balancer := (BalancerState.start maxConnections).balancer maxConnections store.maps.size
    rcases balancer.program_written with ⟨source, written⟩
    exact ⟨balancer, begun, ⟨source, balancer.maps, {}, ""⟩, created, written, rfl⟩

/-- A run of the program of a balancer, by whatever engine, is that of the lines. -/
theorem runs_of_installed
    {engine : Engine} {clock : Clock}
    (installed : (state.balancer maxConnections base).Installed program) :
    Runs (engine.setup clock program) base := by
  have written := installed.program
  rw [LoadBalancer.program, Application.program] at written
  split at written
  · cases written
  · rename_i code made
    have source := Except.ok.inj written
    refine ⟨?_, fun index inside => ?_, ?_⟩
    · show Listed program.program.code
      rw [← source]
      exact listed_of_finish made
    · show program.maps[index]? = some (base + index)
      have range : (state.balancer maxConnections base).maps = List.range' base 3 := rfl
      rw [installed.maps, range]
      exact (List.getElem?_range' inside).trans (congrArg _ (by rw [Nat.one_mul]))
    · show program.program.attach.allowsRedirect = true
      rw [← source]
      rfl

end LoadBalancer

namespace BalancerState

open LoadBalancer

variable {maxConnections : Nat} {base : MapId} {program : VerifiedProgram} {state : BalancerState}

/-- The balancer is in the state, and so are its maps. -/
structure Serves (state : BalancerState) (maxConnections : Nat) (base : MapId)
    (reached : LoadBalancer × Store) : Prop where
  balancer : reached.1 = state.balancer maxConnections base
  sound : state.Sound
  shown : state.Shown base reached.2

namespace Serves

variable {reached : LoadBalancer × Store}

/-- The program does to a packet what the state does, and leaves maps that show the state after
it. -/
theorem run
    (serves : state.Serves maxConnections base reached)
    (installed : (state.balancer maxConnections base).Installed program) (clock : Clock)
    (context : PacketContext) (area : WorkArea) :
    let result := ({} : Engine).run clock program context area reached.2
    Sent state context.packet base reached.2 result.outcome result.context.packet result.store := by
  have runs : Runs (({} : Engine).setup clock program) base := runs_of_installed installed
  have short : program.program.code.size ≤ ({} : Engine).budget := by
    rw [show program.program.code.size = 91 from runs.listed.size]
    decide
  exact Engine.run_of_delivers area rfl short (runs.sends serves.sound serves.shown)

/-- The balancer answers a call as the state does. -/
theorem serve
    (serves : state.Serves maxConnections base reached)
    (installed : (state.balancer maxConnections base).Installed program) (call : BalancerCall) :
    (LoadBalancer.serve program call reached).1 = (state.answer call).1 ∧
      (state.answer call).2.Serves maxConnections base
        (LoadBalancer.serve program call reached).2 := by
  rcases reached with ⟨balancer, store⟩
  rcases serves with ⟨rfl, sound, shown⟩
  cases call with
  | add backend =>
      rcases shown.add maxConnections sound backend with ⟨after, run, shown', _⟩
      rcases added : (state.add backend).1 with error | number
      all_goals
        rw [added] at run
        simp only [LoadBalancer.serve, run, answer, added]
      · exact ⟨rfl,
          congrArg (BalancerState.balancer maxConnections · base) (add_refused added).symm,
          sound.add backend, shown'⟩
      · exact ⟨rfl, rfl, sound.add backend, shown'⟩
  | remove number =>
      rcases shown.remove maxConnections sound number with ⟨after, run, shown', _⟩
      rcases removed : (state.remove number).1 with error | backend
      all_goals
        rw [removed] at run
        simp only [LoadBalancer.serve, run, answer, removed]
      · exact ⟨rfl,
          congrArg (BalancerState.balancer maxConnections · base) (remove_refused removed).symm,
          sound.remove number, shown'⟩
      · exact ⟨rfl, rfl, sound.remove number, shown'⟩
  | run clock context area =>
      have sent := run ⟨rfl, sound, shown⟩ installed clock context area
      simp only [LoadBalancer.serve, answer]
      exact ⟨congrArg₂ BalancerAnswer.sent sent.1 sent.2.1,
        congrArg (placed maxConnections base) (send_backends state _).symm,
          sound.send _, sent.2.2.1⟩
  | connection flow =>
      rcases shown.connection maxConnections sound flow with ⟨after, run, shown'⟩
      simp only [LoadBalancer.serve, run, answer]
      exact ⟨trivial, rfl, sound.touch flow, shown'⟩
  | select flow =>
      rcases shown.selectBackend maxConnections sound flow with ⟨after, run, shown'⟩
      simp only [LoadBalancer.serve, run, answer]
      exact ⟨trivial, rfl, sound.touch flow, shown'⟩

/-- It answers any series of calls as the state does, and then is in the state that they lead to. -/
theorem follows
    (serves : state.Serves maxConnections base reached)
    (installed : (state.balancer maxConnections base).Installed program)
    (calls : List BalancerCall) :
    (answerAll (LoadBalancer.serve program) calls reached).1 = (answerAll answer calls state).1 ∧
      (answerAll answer calls state).2.Serves maxConnections base
        (answerAll (LoadBalancer.serve program) calls reached).2 := by
  let related (reached : LoadBalancer × Store) (state : BalancerState) : Prop :=
    state.Serves maxConnections base reached
  have alike (call : BalancerCall) (reached : LoadBalancer × Store) (state' : BalancerState)
      (serves : related reached state') :
      (LoadBalancer.serve program call reached).1 = (state'.answer call).1 ∧
        related (LoadBalancer.serve program call reached).2 (state'.answer call).2 :=
    serves.serve installed call
  exact answerAll_simulates alike calls serves

end Serves

end BalancerState

namespace LoadBalancer

variable {maxConnections : Nat} {balancer : LoadBalancer} {store begun : Store}
variable {program : VerifiedProgram}

/-- A balancer that has been created shows the state without backends. -/
theorem serves_of_create (created : (create maxConnections).run store = (.ok balancer, begun)) :
    (BalancerState.start maxConnections).Serves maxConnections store.maps.size
      (balancer, begun) := by
  rcases shown_of_create created with ⟨rfl, shown, _⟩
  exact ⟨rfl, .start maxConnections, shown⟩

/-- A balancer that has been set up and asked some things is in the state that they lead to. -/
theorem serves_after
    (created : (create maxConnections).run store = (.ok balancer, begun))
    (installed : balancer.Installed program) (calls : List BalancerCall) :
    (answerAll BalancerState.answer calls (.start maxConnections)).2.Serves maxConnections
      store.maps.size (balancer.after program begun calls) := by
  rcases shown_of_create created with ⟨rfl, _⟩
  exact ((serves_of_create created).follows installed calls).2

/-- Where the control plane sends a packet: its flow, and the backend selected for it.  Packets
without ports are not sent anywhere. -/
def selection? (balancer : LoadBalancer) (store : Store) (packet : Bytes) :
    Option (Flow × Nat × Backend) :=
  ((Flow.ofFrame? packet).filter Flow.hasPorts).bind fun flow =>
    ((balancer.selectBackend flow).run store).1.toOption.join.map fun choice => (flow, choice)

end LoadBalancer

theorem BalancerState.Serves.selection?_eq
    {state : BalancerState} {maxConnections : Nat} {base : MapId} {reached : LoadBalancer × Store}
    (serves : state.Serves maxConnections base reached) (packet : Bytes) :
    reached.1.selection? reached.2 packet = state.route? packet := by
  rw [LoadBalancer.selection?, route?]
  refine congrArg _ (funext fun flow => ?_)
  rcases serves.shown.selectBackend maxConnections serves.sound flow with ⟨after, run, _⟩
  rw [serves.balancer, run]
  rfl

/-- The program of a balancer agrees with its control plane.  Whatever the balancer has been asked
before, a packet of a flow with ports for which a backend is selected is redirected to it, with only
the destination rewritten, and from then on that backend is recorded for the flow.  Every other
packet is forwarded as it is, and nothing changes in the maps. -/
theorem loadBalancer_sends_as_selected
    {maxConnections : Nat} {balancer : LoadBalancer} {store begun : Store}
    {program : VerifiedProgram}
    (created : (LoadBalancer.create maxConnections).run store = (.ok balancer, begun))
    (installed : balancer.Installed program) (calls : List BalancerCall)
    (clock : Clock) (context : PacketContext) (area : WorkArea) :
    let (balancer, reached) := balancer.after program begun calls
    let result := ({} : Engine).run clock program context area reached
    match balancer.selection? reached context.packet with
    | some (flow, number, backend) =>
      result.outcome = .ok (.redirect number) ∧
        result.context.packet = backend.readdress context.packet ∧
        ((balancer.connection flow).run result.store).1 = .ok (some number)
    | none =>
      result.outcome = .ok .forward ∧ result.context.packet = context.packet ∧
        result.store = reached := by
  have serves := LoadBalancer.serves_after created installed calls
  rcases LoadBalancer.shown_of_create created with ⟨rfl, _⟩
  generalize LoadBalancer.after _ program begun calls = reached at serves ⊢
  generalize (answerAll BalancerState.answer calls (.start maxConnections)).2 = state at serves
  have sent := serves.run installed clock context area
  have sound := serves.sound.send context.packet
  dsimp only at sent ⊢
  rw [serves.selection?_eq]
  rw [LoadBalancer.Sent, BalancerState.send] at sent
  rw [BalancerState.send] at sound
  rcases routed : state.route? context.packet with _ | ⟨flow, number, backend⟩
  all_goals
    rw [routed] at sent sound
    dsimp only at sent sound ⊢
    rcases sent with ⟨outcome, packet, shown, unchanged⟩
  · exact ⟨outcome, packet, unchanged rfl⟩
  · refine ⟨outcome, packet, ?_⟩
    rcases shown.connection maxConnections sound flow with ⟨after, run, _⟩
    have recorded : (state.remember flow number).connections.find? flow.key = some number :=
      RecencyList.find?_update _
    have same : (state.remember flow number).balancer maxConnections store.maps.size =
        state.balancer maxConnections store.maps.size := rfl
    rw [recorded, same] at run
    rw [serves.balancer, run]

/-- With one backend, the first packet of a flow is sent there and its connection is recorded. -/
theorem loadBalancer_redirects_packet :
    let backend : Backend := ⟨⟨172, 16, 0, 5⟩, 8080⟩
    let packet : Bytes := .replicate 12 0 ++ #[8, 0, 0x45] ++ .replicate 8 0 ++ #[6] ++
      .replicate 14 1
    ∃ balancer begun program, (LoadBalancer.create 2).run {} = (.ok balancer, begun) ∧
      balancer.Installed program ∧
      let (balancer, reached) := balancer.after program begun [.add backend]
      let result := ({} : Engine).run (.still 0) program { packet } (.zeroed 512) reached
      result.outcome = .ok (.redirect 0) ∧ result.context.packet = backend.readdress packet ∧
        ((balancer.connection (.tcp ⟨1, 1, 1, 1⟩ 257 ⟨1, 1, 1, 1⟩ 257)).run result.store).1 =
          .ok (some 0) := by
  intro backend packet
  have creates :
    ((ApplicationAction.createMaps (LoadBalancer.schemas 2)).run {}).1.toOption.isSome := by
    decide +kernel
  rcases LoadBalancer.exists_installed creates with ⟨balancer, begun, program, created, installed⟩
  refine ⟨balancer, begun, program, created, installed, ?_⟩
  have serves := LoadBalancer.serves_after created installed [.add backend]
  have selects := (serves.selection?_eq packet).trans
    (show _ = some (Flow.tcp ⟨1, 1, 1, 1⟩ 257 ⟨1, 1, 1, 1⟩ 257, 0, backend) by decide +kernel)
  have sends := loadBalancer_sends_as_selected created installed [.add backend] 0 { packet }
    (.zeroed 512)
  dsimp only at sends ⊢
  rw [selects] at sends
  exact sends

end PacketFilter
