import PacketFilter.Proofs.Affinity

/-!
# The order of connections

The connection table forgets what has not been used for longest, so the order
of its entries decides which flow loses its connection next.  When a backend is
removed, its connections are forgotten by walking the table from the entry used
last on.  Every entry on the way is looked at, and looking at an entry counts as
a use: those that stay are turned around.

So the entries that stay are the right ones, with their values, but the order is
kept only where there is at most one of them.  Then later calls cost the same
flows their connections as if the entries had just been taken out.
-/

namespace PacketFilter

/-! ## What calls lose -/

section

variable {Call Answer Answer' State State' Item Item' : Type} [DecidableEq Item] [DecidableEq Item']

/-- What each call of a series loses of what is there before it. -/
def losses (items : State → List Item) (handle : Call → State → Answer × State) :
    List Call → State → List (List Item)
  | [], _ => []
  | call :: calls, state =>
    (items state).filter (· ∉ items (handle call state).2) ::
      losses items handle calls (handle call state).2

/-- Related states with the same items under other names lose the same. -/
theorem losses_simulates
    {items : State → List Item} {items' : State' → List Item'}
    {handle : Call → State → Answer × State} {handle' : Call → State' → Answer' × State'}
    {related : State → State' → Prop} {name : Item → Item'} (injective : Function.Injective name)
    (named : ∀ state state', related state state' → (items state).map name = items' state')
    (onward : ∀ call state state', related state state' →
      related (handle call state).2 (handle' call state').2) (calls : List Call) :
    ∀ {state : State} {state' : State'}, related state state' →
      (losses items handle calls state).map (List.map name) =
        losses items' handle' calls state' := by
  induction calls with
  | nil => exact fun _ => rfl
  | cons call calls continues =>
      intro state state' held
      have held' := onward call state state' held
      rw [losses, losses, List.map_cons, continues held', ← named _ _ held, ← named _ _ held',
        List.filter_map]
      refine congrArg (· :: _) (congrArg _ (List.filter_congr fun item _ => ?_))
      exact decide_eq_decide.mpr (not_congr (List.mem_map_of_injective injective).symm)

end

/-- A list without repetitions is the same backwards only if there is nothing to turn around. -/
theorem reverse_eq_self_iff {α : Type} {list : List α} (distinct : list.Nodup) :
    list.reverse = list ↔ list.length ≤ 1 := by
  constructor
  · intro same
    by_contra long
    have first : 0 < list.reverse.length := by
      rw [List.length_reverse]
      omega
    have ends : list.reverse[0] = list[list.length - 1 - 0] := List.getElem_reverse first
    simp only [same] at ends
    have := distinct.getElem_inj_iff.mp ends
    omega
  · intro short
    match list, short with
    | [], _ => rfl
    | [_], _ => rfl

namespace LoadBalancer

/-- The flows with a connection, the one used last in front. -/
def connectedFlows (reached : LoadBalancer × Store) : List Flow :=
  (reached.1.connections.keys.run reached.2).1.toOption.getD []

/-- The connections in the order of use, each flow with the number of its backend. -/
def connectionOrder (reached : LoadBalancer × Store) : List (Flow × Option Nat) :=
  (connectedFlows reached).map fun flow =>
    (flow, ((reached.1.connection flow).run reached.2).1.toOption.join)

end LoadBalancer

namespace BalancerState

open LoadBalancer

/-- The backend of a number is out of use, and its connections have been taken out of the list. -/
def withdraw (state : BalancerState) (number : Nat) : BalancerState where
  backends := state.backends.setIfInBounds number none
  connections :=
    { state.connections with entries := state.connections.entries.filter (·.2 ≠ number) }

/-- The connection used last counts as the one that has not been used for longest, and so on. -/
def turned (state : BalancerState) : BalancerState where
  backends := state.backends
  connections := { state.connections with entries := state.connections.entries.reverse }

/-- What each call costs its connection. -/
def lost (calls : List BalancerCall) (state : BalancerState) : List (List Bytes) :=
  losses (fun state => state.connections.keys) answer calls state

theorem remove_eq
    {state : BalancerState} {number : Nat} {backend : Backend}
    (removed : (state.remove number).1 = .ok backend) :
    (state.remove number).2 = (state.withdraw number).turned := by
  rw [remove] at removed ⊢
  split
  case h_1 none =>
    rw [none] at removed
    cases removed
  case h_2 => rfl

namespace Serves

variable {maxConnections : Nat} {base : MapId} {program : VerifiedProgram} {state : BalancerState}
variable {reached : LoadBalancer × Store}

theorem connectedFlows (serves : state.Serves maxConnections base reached) :
    (connectedFlows reached).map Flow.key = state.connections.keys ∧
      state.connections.keys.Nodup := by
  rcases serves.shown.connections with ⟨map, there, lists⟩
  rcases lists.run_keys there with ⟨flows, run, keys⟩
  have distinct := lists.nodup_keys
  rw [RecencyList.keys_mapValues] at keys distinct
  have found : reached.1.connections.keys.run reached.2 = (.ok flows, reached.2) := by
    rw [serves.balancer]
    exact run
  rw [LoadBalancer.connectedFlows, found]
  exact ⟨keys.symm, distinct⟩

/-- The connections are those of the list, each with its backend. -/
theorem connectionOrder (serves : state.Serves maxConnections base reached) :
    (connectionOrder reached).map (Prod.map Flow.key id) =
      state.connections.entries.map (Prod.map id some) := by
  rcases serves.connectedFlows with ⟨keys, distinct⟩
  have answers (flow : Flow) : ((reached.1.connection flow).run reached.2).1 =
      .ok (state.connections.find? flow.key) := by
    rcases serves.shown.connection maxConnections serves.sound flow with ⟨after, run, _⟩
    rw [serves.balancer, run]
  have found (entry : Bytes × Nat) (listed : entry ∈ state.connections.entries) :
      state.connections.find? entry.1 = some entry.2 := by
    rcases List.mem_iff_append.mp listed with ⟨front, back, split⟩
    exact RecencyList.find?_middle split distinct
  calc (LoadBalancer.connectionOrder reached).map (Prod.map Flow.key id)
      = (LoadBalancer.connectedFlows reached).map
          fun flow => (flow.key, state.connections.find? flow.key) := by
        rw [LoadBalancer.connectionOrder, List.map_map]
        refine List.map_congr_left fun flow _ => ?_
        rw [Function.comp_apply, answers]
        rfl
    _ = state.connections.keys.map fun key => (key, state.connections.find? key) := by
        rw [← keys, List.map_map]
        rfl
    _ = state.connections.entries.map (Prod.map id some) := by
        rw [RecencyList.keys, List.map_map]
        exact List.map_congr_left fun entry listed => congrArg _ (found entry listed)

theorem connectionOrder_eq
    (serves : state.Serves maxConnections base reached) (order : List (Flow × Option Nat))
    (known : state.connections.entries.map (Prod.map id some) = order.map (Prod.map Flow.key id)) :
    LoadBalancer.connectionOrder reached = order :=
  (Flow.key_injective.prodMap Function.injective_id).list_map (serves.connectionOrder.trans known)

theorem nodup_connectionOrder (serves : state.Serves maxConnections base reached) :
    (LoadBalancer.connectionOrder reached).Nodup := by
  rcases serves.connectedFlows with ⟨keys, distinct⟩
  have flows : (LoadBalancer.connectedFlows reached).Nodup := by
    rw [← keys] at distinct
    exact distinct.of_map _
  exact flows.map fun _ _ same => (Prod.mk.inj same).1

/-- The connections that stay when a backend is removed. -/
theorem filter_connectionOrder
    (serves : state.Serves maxConnections base reached) (number : Nat) :
    ((LoadBalancer.connectionOrder reached).filter (·.2 ≠ some number)).map
        (Prod.map Flow.key id) =
      (state.withdraw number).connections.entries.map (Prod.map id some) := by
  have differs : (fun entry : Bytes × Nat => decide (some entry.2 ≠ some number)) =
      fun entry => decide (entry.2 ≠ number) :=
    funext fun entry => decide_eq_decide.mpr (not_congr Option.some_inj)
  calc
    ((LoadBalancer.connectionOrder reached).filter (·.2 ≠ some number)).map (Prod.map Flow.key id) =
        ((LoadBalancer.connectionOrder reached).map (Prod.map Flow.key id)).filter
          (·.2 ≠ some number) := by
        rw [List.filter_map]
        rfl
    _ = (state.connections.entries.map (Prod.map id some)).filter (·.2 ≠ some number) := by
        rw [serves.connectionOrder]
    _ = (state.connections.entries.filter fun entry => some entry.2 ≠ some number).map
          (Prod.map id some) := List.filter_map
    _ = (state.withdraw number).connections.entries.map (Prod.map id some) := by
        rw [differs]
        rfl

/-- A backend in use can be removed. -/
theorem removes
    (serves : state.Serves maxConnections base reached) {number : Nat} {backend : Backend}
    (known : state.backend? number = some backend) :
    ∃ balancer after, (reached.1.removeBackend number).run reached.2 =
      (.ok (backend, balancer), after) := by
  rcases serves.shown.remove maxConnections serves.sound number with ⟨after, run, _⟩
  rw [BalancerState.remove, known, ← serves.balancer] at run
  exact ⟨_, after, run⟩

/-- Removing a backend takes its connections out of the list and turns the others around. -/
theorem remove
    (serves : state.Serves maxConnections base reached) {number : Nat} {backend : Backend}
    {balancer : LoadBalancer} {after : Store}
    (removed : (reached.1.removeBackend number).run reached.2 = (.ok (backend, balancer), after)) :
    (state.withdraw number).turned.Serves maxConnections base (balancer, after) := by
  rcases serves.shown.remove maxConnections serves.sound number with ⟨after', run, shown, _⟩
  rw [← serves.balancer, removed] at run
  rcases Prod.mk.inj run with ⟨answered, rfl⟩
  rcases known : (state.remove number).1 with error | backend'
  all_goals
    rw [known] at answered
    cases answered
  have sound := serves.sound.remove number
  rw [remove_eq known] at sound shown ⊢
  exact ⟨rfl, sound, shown⟩

/-- Whatever the balancer is asked, it loses the connections that the list loses. -/
theorem losses
    (serves : state.Serves maxConnections base reached)
    (installed : (state.balancer maxConnections base).Installed program)
    (later : List BalancerCall) :
    (losses LoadBalancer.connectedFlows (LoadBalancer.serve program) later reached).map
      (List.map Flow.key) = state.lost later := by
  let related (reached : LoadBalancer × Store) (state : BalancerState) : Prop :=
    state.Serves maxConnections base reached
  have named (reached : LoadBalancer × Store) (state : BalancerState)
      (serves : related reached state) :
      (LoadBalancer.connectedFlows reached).map Flow.key = state.connections.keys :=
    (BalancerState.Serves.connectedFlows serves).1
  have onward (call : BalancerCall) (reached : LoadBalancer × Store) (state' : BalancerState)
      (serves : related reached state') :
      related (LoadBalancer.serve program call reached).2 (state'.answer call).2 :=
    (BalancerState.Serves.serve serves installed call).2
  exact losses_simulates Flow.key_injective named onward later serves

end Serves

end BalancerState

/-- Removing a backend turns the connections around.  Whatever a balancer has been asked before,
when a backend is removed exactly the connections of other backends stay, with the same backends.
They come to stand in the reverse order of use, which is the same order only if there is at most one
of them.  From then on a call costs the connections that it costs a list with its entries turned
around; with at most one entry, those that it costs a list from which the others have been taken
out. -/
theorem loadBalancer_removal_turns_connections
    {maxConnections : Nat} {balancer : LoadBalancer} {store begun : Store}
    {program : VerifiedProgram}
    (created : (LoadBalancer.create maxConnections).run store = (.ok balancer, begun))
    (installed : balancer.Installed program) (calls : List BalancerCall)
    {number : Nat} {backend : Backend} {balancer' : LoadBalancer} {after : Store} :
    let reached := balancer.after program begun calls
    (reached.1.removeBackend number).run reached.2 = (.ok (backend, balancer'), after) →
      let state := (answerAll BalancerState.answer calls (.start maxConnections)).2
      let kept := (LoadBalancer.connectionOrder reached).filter (·.2 ≠ some number)
      let lost (later : List BalancerCall) : List (List Bytes) :=
        (losses LoadBalancer.connectedFlows (LoadBalancer.serve program) later
          (balancer', after)).map (List.map Flow.key)
      LoadBalancer.connectionOrder (balancer', after) = kept.reverse ∧
        (LoadBalancer.connectionOrder (balancer', after) = kept ↔ kept.length ≤ 1) ∧
        (∀ later, lost later = (state.withdraw number).turned.lost later) ∧
        (kept.length ≤ 1 → ∀ later, lost later = (state.withdraw number).lost later) := by
  intro reached removed state kept lost
  have serves := LoadBalancer.serves_after created installed calls
  rcases LoadBalancer.shown_of_create created with ⟨rfl, _⟩
  change state.Serves maxConnections store.maps.size reached at serves
  have turned := serves.remove removed
  have order : LoadBalancer.connectionOrder (balancer', after) = kept.reverse := by
    refine turned.connectionOrder_eq _ ?_
    rw [List.map_reverse, serves.filter_connectionOrder]
    exact List.map_reverse
  have costs (later : List BalancerCall) :
      lost later = (state.withdraw number).turned.lost later :=
    turned.losses installed later
  have ordered : LoadBalancer.connectionOrder (balancer', after) = kept ↔ kept.length ≤ 1 := by
    rw [order]
    exact reverse_eq_self_iff (serves.nodup_connectionOrder.filter _)
  refine ⟨order, ordered, costs, fun few later => ?_⟩
  have entries : (state.withdraw number).turned.connections.entries =
      (state.withdraw number).connections.entries := by
    refine (Function.injective_id.prodMap (Option.some_injective Nat)).list_map ?_
    rw [← turned.connectionOrder, ordered.mpr few]
    exact serves.filter_connectionOrder number
  have same : (state.withdraw number).turned = state.withdraw number :=
    congrArg (fun entries => { state.withdraw number with
      connections := { (state.withdraw number).connections with entries } }) entries
  rw [costs, same]

/-- A backend is removed that has one connection, and the other backend has one too, which was used
last.  It stays, and from then on it is lost as if the other connection had not been there. -/
theorem loadBalancer_removal_keeps_one :
    let first : Backend := ⟨⟨172, 16, 0, 5⟩, 8080⟩
    let run (fill : UInt8) : BalancerCall :=
      .run (.still 0)
        { packet := .replicate 12 0 ++ #[8, 0, 0x45] ++ .replicate 8 0 ++ #[6] ++
            .replicate 14 fill } (.zeroed 512)
    let calls : List BalancerCall := [.add first, run 1, .add ⟨⟨172, 16, 0, 7⟩, 8080⟩, run 2]
    let state := (answerAll BalancerState.answer calls (.start 2)).2
    ∃ balancer begun program, (LoadBalancer.create 2).run {} = (.ok balancer, begun) ∧
      balancer.Installed program ∧
      let reached := balancer.after program begun calls
      LoadBalancer.connectionOrder reached =
          [(.tcp ⟨2, 2, 2, 2⟩ 514 ⟨2, 2, 2, 2⟩ 514, some 1),
            (.tcp ⟨1, 1, 1, 1⟩ 257 ⟨1, 1, 1, 1⟩ 257, some 0)] ∧
        ∃ balancer' after,
          (reached.1.removeBackend 0).run reached.2 = (.ok (first, balancer'), after) ∧
          LoadBalancer.connectionOrder (balancer', after) =
            [(.tcp ⟨2, 2, 2, 2⟩ 514 ⟨2, 2, 2, 2⟩ 514, some 1)] ∧
          ∀ later, (losses LoadBalancer.connectedFlows (LoadBalancer.serve program) later
            (balancer', after)).map (List.map Flow.key) = (state.withdraw 0).lost later := by
  intro first run calls state
  have creates :
    ((ApplicationAction.createMaps (LoadBalancer.schemas 2)).run {}).1.toOption.isSome := by
    decide +kernel
  rcases LoadBalancer.exists_installed creates with ⟨balancer, begun, program, created, installed⟩
  refine ⟨balancer, begun, program, created, installed, ?_⟩
  have serves := LoadBalancer.serves_after created installed calls
  have order := serves.connectionOrder_eq
    [(.tcp ⟨2, 2, 2, 2⟩ 514 ⟨2, 2, 2, 2⟩ 514, some 1),
      (.tcp ⟨1, 1, 1, 1⟩ 257 ⟨1, 1, 1, 1⟩ 257, some 0)] (by decide +kernel)
  have known : state.backend? 0 = some first := by decide +kernel
  rcases serves.removes known with ⟨balancer', after, removed⟩
  refine ⟨order, balancer', after, removed, ?_⟩
  rcases loadBalancer_removal_turns_connections created installed calls removed with
    ⟨turned, _, _, keeps⟩
  rw [order] at turned keeps
  exact ⟨turned, keeps (by decide)⟩

/-- A backend is removed that has no connection, and the other backend has two.  They change places:
a third flow then costs the one that was used last. -/
theorem loadBalancer_removal_swaps_two :
    let first : Backend := ⟨⟨172, 16, 0, 5⟩, 8080⟩
    let second : Backend := ⟨⟨172, 16, 0, 7⟩, 8080⟩
    let run (fill : UInt8) : BalancerCall :=
      .run (.still 0)
        { packet := .replicate 12 0 ++ #[8, 0, 0x45] ++ .replicate 8 0 ++ #[6] ++
            .replicate 14 fill } (.zeroed 512)
    let older : Flow := .tcp ⟨1, 1, 1, 1⟩ 257 ⟨1, 1, 1, 1⟩ 257
    let newer : Flow := .tcp ⟨2, 2, 2, 2⟩ 514 ⟨2, 2, 2, 2⟩ 514
    let calls : List BalancerCall := [.add first, run 1, run 2, .add second]
    let state := (answerAll BalancerState.answer calls (.start 2)).2
    ∃ balancer begun program, (LoadBalancer.create 2).run {} = (.ok balancer, begun) ∧
      balancer.Installed program ∧
      let reached := balancer.after program begun calls
      LoadBalancer.connectionOrder reached = [(newer, some 0), (older, some 0)] ∧
        ∃ balancer' after,
          (reached.1.removeBackend 1).run reached.2 = (.ok (second, balancer'), after) ∧
          LoadBalancer.connectionOrder (balancer', after) = [(older, some 0), (newer, some 0)] ∧
          losses LoadBalancer.connectedFlows (LoadBalancer.serve program) [run 3]
            (balancer', after) = [[newer]] ∧
          (state.withdraw 1).lost [run 3] = [[older.key]] := by
  intro first second run older newer calls state
  have creates :
    ((ApplicationAction.createMaps (LoadBalancer.schemas 2)).run {}).1.toOption.isSome := by
    decide +kernel
  rcases LoadBalancer.exists_installed creates with ⟨balancer, begun, program, created, installed⟩
  refine ⟨balancer, begun, program, created, installed, ?_⟩
  have serves := LoadBalancer.serves_after created installed calls
  have known : state.backend? 1 = some second := by decide +kernel
  rcases serves.removes known with ⟨balancer', after, removed⟩
  have turned := serves.remove removed
  refine ⟨serves.connectionOrder_eq _ (by decide +kernel), balancer', after, removed,
    turned.connectionOrder_eq _ (by decide +kernel), ?_, by decide +kernel⟩
  rcases LoadBalancer.shown_of_create created with ⟨rfl, _⟩
  refine (Flow.key_injective.list_map.list_map) ?_
  rw [turned.losses installed]
  decide +kernel

end PacketFilter
