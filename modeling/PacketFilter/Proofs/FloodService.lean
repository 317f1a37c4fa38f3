import PacketFilter.Proofs.FloodControl
import PacketFilter.Proofs.FloodProgram
import PacketFilter.Proofs.Series

/-!
# A flood guard at work

Whatever a guard is asked after it has been set up and its program has been let
through, control plane and packets in any order, it gives the answers of
`FloodState`.
-/

namespace PacketFilter

namespace FloodGuard

/-- Serve a call with the guard and its program. -/
def serve (guard : FloodGuard) (program : VerifiedProgram) : FloodCall → Store → FloodAnswer × Store
  | .block address, store =>
    let (result, store) := (guard.block address).run store
    (.done result, store)
  | .unblock address, store =>
    let (result, store) := (guard.unblock address).run store
    (.unblocked result, store)
  | .setThreshold threshold, store =>
    let (result, store) := (guard.setThreshold threshold).run store
    (.done result, store)
  | .resetWindow, store =>
    let (result, store) := guard.resetWindow.run store
    (.forgotten result, store)
  | .run clock context area, store =>
    let result := ({} : Engine).run clock program context area store
    (.judged result.outcome result.context.packet, result.store)
  | .hits address, store =>
    let (result, store) := (guard.hits address).run store
    (.count result, store)
  | .flowCount flow, store =>
    let (result, store) := (guard.flowCount flow).run store
    (.count result, store)
  | .counts, store =>
    let (result, store) := guard.counts.run store
    (.counts result, store)

variable {config : FloodGuardConfig} {guard : FloodGuard} {store begun : Store}
variable {base workers : Nat} {program : VerifiedProgram} {elapsed : String} {state : FloodState}

/-- The maps of a guard, in the order of the program. -/
def maps (guard : FloodGuard) : List MapId :=
  [guard.blocklist.map, guard.flows.map, guard.counters.map, guard.settings.map, guard.events.map]

theorem maps_placed (config : FloodGuardConfig) (base : MapId) :
    (placed config base).maps = List.range' base (schemas config).length :=
  rfl

/-- The program is that of the guard, on the maps of the guard. -/
def Installed (guard : FloodGuard) (program : VerifiedProgram) : Prop :=
  Application.Installed guard.program guard.maps program

/-- A program that has been loaded for a new guard is that of the guard, on its maps. -/
theorem installed_of_load
    (created : (create config).run store = (.ok guard, begun))
    (loaded : guard.load begun elapsed = .ok program) : guard.Installed program := by
  rcases shown_of_create created with ⟨rfl, _, named⟩
  rw [load] at loaded
  rw [Installed, maps_placed]
  refine Application.installed_of_load (fun source written => ?_) named loaded
  rw [FloodGuard.program, Application.program] at written
  split at written
  · cases written
  · cases written
    rfl

/-- Every guard has a program. -/
theorem program_written (guard : FloodGuard) : ∃ source, guard.program = .ok source := by
  have assembles : assembly.finish.toOption.isSome := by decide +kernel
  rw [FloodGuard.program, Application.program]
  rcases made : assembly.finish with error | code
  · rw [made] at assembles
    cases assembles
  · exact ⟨_, rfl⟩

theorem listed_of_installed (installed : guard.Installed program) :
    Listed program.program.code := by
  have written := installed.program
  rw [FloodGuard.program, Application.program] at written
  split at written
  · cases written
  · rename_i code made
    rw [← Except.ok.inj written]
    exact listed_of_finish made

/-- The guard answers a call as the state does. -/
theorem serve_follows
    (config : FloodGuardConfig) (installed : (placed config base).Installed program)
    {call : FloodCall}
    (within : call.Within workers) (shown : state.Shown base workers store) :
    ((placed config base).serve program call store).1 = (state.answer call).1 ∧
      (state.answer call).2.Shown base workers
        ((placed config base).serve program call store).2 := by
  cases call with
  | block address =>
      rcases shown.block config address with ⟨after, run, shown'⟩
      simp only [serve, run]
      exact ⟨rfl, shown'⟩
  | unblock address =>
      rcases shown.unblock config address with ⟨after, run, shown'⟩
      simp only [serve, run]
      exact ⟨rfl, shown'⟩
  | setThreshold threshold =>
      rcases shown.changeThreshold config threshold with ⟨map, run, shown'⟩
      simp only [serve, run]
      exact ⟨rfl, shown'⟩
  | resetWindow =>
      rcases shown.resetWindow config with ⟨after, run, shown'⟩
      simp only [serve, run]
      exact ⟨rfl, shown'⟩
  | run clock context area =>
      have listed := listed_of_installed installed
      have maps : ∀ index < 5, program.maps[index]? = some (base + index) := by
        intro index inside
        rw [installed.maps, maps_placed]
        exact (List.getElem?_range' inside).trans (congrArg _ (by rw [Nat.one_mul]))
      have runs : Runs (({} : Engine).setup clock program) context.metadata base workers :=
        ⟨listed, maps, within⟩
      have short : program.program.code.size ≤ ({} : Engine).budget := by
        rw [listed.size]
        decide
      have judged := Engine.run_of_delivers area rfl short (runs.judges shown)
      simp only [serve]
      exact ⟨congrArg₂ FloodAnswer.judged judged.1 judged.2.1, judged.2.2⟩
  | hits address =>
      simp only [serve, shown.hits config address]
      exact ⟨rfl, shown⟩
  | flowCount flow =>
      rcases shown.flowCount config flow with ⟨after, run, shown'⟩
      simp only [serve, run]
      exact ⟨rfl, shown'⟩
  | counts =>
      simp only [serve, shown.counts config]
      exact ⟨rfl, shown⟩

end FloodGuard

/-- A guard that has been set up on a store, for as many workers as the store has, answers every
series of calls as the state that it starts in does: no packet is changed, every packet is judged
and counted, and the hits, the flows and the counts are those of the state.  Counts are words, so
one that is as great as it can be goes on from zero. -/
theorem floodGuard_follows_floodState
    {config : FloodGuardConfig} {guard : FloodGuard} {store begun : Store}
    {program : VerifiedProgram}
    (created : (FloodGuard.create config).run store = (.ok guard, begun))
    (installed : guard.Installed program) (calls : List FloodCall)
    (within : ∀ call ∈ calls, call.Within (max 1 store.workers)) :
    (answerAll (guard.serve program) calls begun).1 =
      (answerAll FloodState.answer calls (FloodState.start config)).1 := by
  rcases FloodGuard.shown_of_create created with ⟨rfl, shown, _⟩
  have alike : ∀ call ∈ calls, ∀ (store' : Store) (state : FloodState),
      state.Shown store.maps.size (max 1 store.workers) store' →
        (FloodGuard.serve _ program call store').1 = (state.answer call).1 ∧ _ :=
    fun call among store' state shown =>
      FloodGuard.serve_follows config installed (within call among) shown
  exact (answerAll_simulates_of_mem calls alike shown).1

/-- With room for one packet of a flow, the second one is dropped. -/
theorem floodGuard_limits_flow :
    let config : FloodGuardConfig :=
      { threshold := 1, maxFlows := 2, maxBlocked := 1, eventSlots := 1 }
    let packet : Bytes := .replicate 12 0 ++ #[8, 0, 0x45] ++ .replicate 8 0 ++ #[1] ++
      .replicate 10 0
    let run : FloodCall := .run (.still 0) { packet } (.zeroed 512)
    ∃ guard begun program, (FloodGuard.create config).run {} = (.ok guard, begun) ∧
      guard.Installed program ∧
      (answerAll (guard.serve program) [run, run, .counts] begun).1 =
        [.judged (.ok .forward) packet, .judged (.ok .drop) packet,
          .counts (.ok ⟨1, 0, 1, 0⟩)] := by
  intro config packet run
  have creates : ((FloodGuard.create config).run {}).1.toOption.isSome := by decide +kernel
  rcases created : (FloodGuard.create config).run {} with ⟨error | guard, begun⟩
  · rw [created] at creates
    cases creates
  · rcases guard.program_written with ⟨source, written⟩
    have installed : guard.Installed ⟨source, guard.maps, {}, ""⟩ := ⟨written, rfl⟩
    have within : ∀ call ∈ [run, run, .counts], call.Within 1 := by
      simp [run, FloodCall.Within]
    let state := FloodState.start config
    have first : (state.judge packet).1 = .forward := by decide +kernel
    have second : ((state.judge packet).2.judge packet).1 = .drop := by decide +kernel
    have counts : ((state.judge packet).2.judge packet).2.counts = ⟨1, 0, 1, 0⟩ := by
      decide +kernel
    refine ⟨guard, begun, _, rfl, installed,
      (floodGuard_follows_floodState created installed _ within).trans ?_⟩
    simp only [answerAll_cons, answerAll_nil, run, FloodState.answer, first, second, counts, state]

end PacketFilter
