import PacketFilter.Proofs.SlotOwners

/-!
# Connections that keep their backend

A connection stays with its backend while it is remembered, and it is remembered
until as many other flows as there is room for have been seen after it.  When it
has been forgotten it goes back to its slot, which has the same owner only while
no backends come.  Hence the condition of the theorem: between two packets of a
connection few other flows are seen, unless no backend has come since the packet
with which the connection began.
-/

namespace PacketFilter

/-! ## Keys used since -/

namespace RecencyList

variable {α : Type} {list : RecencyList α} {key other : Bytes} {value value' : α}
variable {used more : Finset Bytes}

/-- The key has that value, and only some of these other keys have been used after it. -/
def HasBefore (list : RecencyList α) (key : Bytes) (value : α) (used : Finset Bytes) : Prop :=
  ∃ front back, list.entries = front ++ (key, value) :: back ∧ (front.map Prod.fst).Nodup ∧
    ∀ other ∈ front.map Prod.fst, other ≠ key ∧ other ∈ used

namespace HasBefore

theorem find? (has : list.HasBefore key value used) : list.find? key = some value := by
  rcases has with ⟨front, back, split, _, apart⟩
  refine List.lookup_eq_some_iff.mpr ⟨front, back, split, fun entry listed => ?_⟩
  exact bne_iff_ne.mpr (apart entry.1 (List.mem_map_of_mem listed)).1.symm

/-- More keys may come in front. -/
theorem mono (has : list.HasBefore key value used) (within : used ⊆ more) :
    list.HasBefore key value more := by
  rcases has with ⟨front, back, split, distinct, apart⟩
  exact ⟨front, back, split, distinct, fun other listed =>
    (apart other listed).imp_right (within ·)⟩

/-- A key that has just been used has nothing in front of it. -/
theorem front (list : RecencyList α) (key : Bytes) (value : α) (used : Finset Bytes) :
    (list.push key value).HasBefore key value used :=
  ⟨[], list.entries, rfl, List.nodup_nil, fun _ listed => by cases listed⟩

/-- A key that has just been used. -/
theorem update_self (list : RecencyList α) (key : Bytes) (value : α) (used : Finset Bytes) :
    (list.update key value .createOrReplace).2.HasBefore key value used := by
  rw [update]
  split
  · exact front _ key value used
  · show (list.insert key value).HasBefore key value used
    rw [insert]
    split <;> exact front _ key value used

/-- Taking another key out brings no key to the front of this one. -/
theorem without (has : list.HasBefore key value used) (differs : other ≠ key) :
    (list.without other).HasBefore key value used := by
  rcases has with ⟨front, back, split, distinct, apart⟩
  have kept : ((front.filter (·.1 ≠ other)).map Prod.fst).Sublist (front.map Prod.fst) :=
    List.filter_sublist.map Prod.fst
  refine ⟨front.filter (·.1 ≠ other), back.filter (·.1 ≠ other), ?_, kept.nodup distinct,
    fun key' listed => apart key' (kept.subset listed)⟩
  rw [RecencyList.without, split, List.filter_append, List.filter_cons_of_pos]
  simpa using differs.symm

/-- Another key, which is not there yet, goes to the front. -/
theorem push
    (has : list.HasBefore key value used) (fresh : other ∉ list.keys) (value' : α) :
    (list.push other value').HasBefore key value (used ∪ {other}) := by
  rcases has with ⟨front, back, split, distinct, apart⟩
  rw [keys, split, List.map_append, List.map_cons, List.mem_append, List.mem_cons, not_or,
    not_or] at fresh
  refine ⟨(other, value') :: front, back, congrArg _ split, List.nodup_cons.mpr ⟨fresh.1, distinct⟩,
    fun key' listed => ?_⟩
  rcases List.mem_cons.mp listed with rfl | listed
  · exact ⟨fresh.2.1, Finset.mem_union_right _ (Finset.mem_singleton_self _)⟩
  · exact (apart key' listed).imp_right (Finset.mem_union_left _)

/-- The key is not the last one when there are more than have been used after it. -/
theorem withoutLast
    (has : list.HasBefore key value used) (more : used.card + 1 < list.size) :
    list.withoutLast.HasBefore key value used := by
  rcases has with ⟨front, back, split, distinct, apart⟩
  have few : front.length ≤ used.card := by
    rw [← List.length_map Prod.fst, ← List.toFinset_card_of_nodup distinct]
    exact Finset.card_le_card fun other listed => (apart other (List.mem_toFinset.mp listed)).2
  have later : back ≠ [] := by
    rintro rfl
    rw [size, split, List.length_append, List.length_singleton] at more
    omega
  refine ⟨front, back.dropLast, ?_, distinct, apart⟩
  rw [RecencyList.withoutLast, split, List.dropLast_append_of_ne_nil (List.cons_ne_nil _ _),
    List.dropLast_cons_of_ne_nil later]

/-- Another key is used.  While there is room for all that have been used, this one stays. -/
theorem update
    (has : list.HasBefore key value used) (differs : other ≠ key) (value' : α)
    (room : (used ∪ {other}).card < list.capacity) :
    (list.update other value' .createOrReplace).2.HasBefore key value (used ∪ {other}) := by
  rw [RecencyList.update]
  split
  case h_1 =>
    refine (has.without differs).push (fun listed => ?_) value'
    rcases List.mem_map.mp listed with ⟨entry, among, same⟩
    exact absurd same (by simpa using (List.mem_filter.mp among).2)
  case h_2 absent =>
    have fresh : other ∉ list.keys := fun listed => by
      rcases find?_of_mem_keys listed with ⟨value, found⟩
      cases absent.symm.trans found
    have pushed := has.push fresh value'
    show (list.insert other value').HasBefore key value (used ∪ {other})
    rw [insert]
    split
    case isFalse => exact pushed
    case isTrue full =>
      have some : list.entries ≠ [] := fun none => by
        rcases has with ⟨front, back, split, _⟩
        rw [none] at split
        exact List.append_ne_nil_of_right_ne_nil front (List.cons_ne_nil _ back) split.symm
      have swap : list.withoutLast.push other value' = (list.push other value').withoutLast :=
        congrArg (RecencyList.mk _) (List.dropLast_cons_of_ne_nil some).symm
      rw [swap]
      exact pushed.withoutLast (by rw [← full] at room; exact Nat.succ_lt_succ room)

end HasBefore

theorem capacity_update (list : RecencyList α) (key : Bytes) (value : α) (mode : UpdateMode) :
    (list.update key value mode).2.capacity = list.capacity := by
  rw [update]
  split
  · split <;> rfl
  · split
    · rfl
    · rw [insert]
      split <;> rfl

theorem capacity_lookup (list : RecencyList α) (key : Bytes) :
    (list.lookup key).2.capacity = list.capacity := by
  rw [lookup]
  split <;> rfl

end RecencyList

/-! ## Packets of a flow among the calls -/

/-- The number of the backend that a packet has been sent to. -/
def BalancerAnswer.target? : BalancerAnswer → Option Nat
  | .sent (.ok (.redirect number)) _ => some number
  | _ => none

namespace BalancerCall

/-- The flow of a packet that is run, if it has ports. -/
def flow? : BalancerCall → Option Flow
  | .run _ context _ => (Flow.ofFrame? context.packet).filter Flow.hasPorts
  | _ => none

/-- The call adds a backend, which may make it win slots of others. -/
def isAddition : BalancerCall → Bool
  | .add _ => true
  | _ => false

/-- The call neither takes a backend away nor looks at connections. -/
def isOnward : BalancerCall → Bool
  | .add _ => true
  | .run .. => true
  | _ => false

/-- The other flows of which there are packets. -/
def others (flow : Flow) (calls : List BalancerCall) : Finset Flow :=
  (calls.filterMap flow?).toFinset.erase flow

/-- Between two packets of the flow that follow each other there are fewer other flows than that,
unless no backend has come from the beginning up to the second of them. -/
def Spaced (room : Nat) (flow : Flow) (calls : List BalancerCall) : Prop :=
  ∀ before first between second after,
    calls = before ++ first :: between ++ second :: after → first.flow? = some flow →
      second.flow? = some flow → (∀ call ∈ between, call.flow? ≠ some flow) →
        (others flow between).card < room ∨
          ∀ call ∈ before ++ first :: between, call.isAddition = false

variable {flow : Flow} {calls later : List BalancerCall} {call : BalancerCall}

/-- Of calls that leave room, the first ones do. -/
theorem Spaced.front {room : Nat} (spaced : Spaced room flow (calls ++ later)) :
    Spaced room flow calls :=
  fun before first between second after split =>
    spaced before first between second (after ++ later) (by simp [split])

theorem others_mono (within : calls ⊆ later) : others flow calls ⊆ others flow later := by
  refine Finset.erase_subset_erase flow fun other listed => ?_
  rw [List.mem_toFinset] at listed ⊢
  exact List.filterMap_subset flow? within listed

/-- The flow of a call is among the others unless it is the one watched. -/
theorem mem_others {other : Flow} (differs : other ≠ flow) (listed : call ∈ calls)
    (among : call.flow? = some other) : other ∈ others flow calls :=
  Finset.mem_erase.mpr ⟨differs,
    List.mem_toFinset.mpr (List.mem_filterMap.mpr ⟨call, listed, among⟩)⟩

/-- Few other flows are few between any two packets. -/
theorem Spaced.of_few {room : Nat} (few : (others flow calls).card < room) :
    Spaced room flow calls := by
  rintro before first between second after rfl _ _ _
  refine .inl (lt_of_le_of_lt (Finset.card_le_card (others_mono fun call listed => ?_)) few)
  exact List.mem_append_left _ (List.mem_append_right _ (List.mem_cons_of_mem _ listed))

end BalancerCall

namespace BalancerState

open LoadBalancer BalancerCall

variable {state : BalancerState} {flow : Flow} {number : Nat} {backend : Backend}
variable {past : List BalancerCall} {call : BalancerCall}

/-! ## What a packet does -/

/-- A packet of a flow for which there is a backend. -/
theorem send_of_choice
    {packet : Bytes} (ported : (Flow.ofFrame? packet).filter Flow.hasPorts = some flow)
    (chosen : state.choice? flow = some (number, backend)) :
    state.send packet =
      (.redirect number, backend.readdress packet, state.remember flow number) := by
  rw [send, route?, ported, Option.bind_some, chosen]
  rfl

/-- A packet either does nothing, or a connection of its flow is remembered. -/
theorem send_cases (state : BalancerState) (packet : Bytes) :
    state.send packet = (.forward, packet, state) ∨
      ∃ flow number backend, (Flow.ofFrame? packet).filter Flow.hasPorts = some flow ∧
        state.choice? flow = some (number, backend) := by
  rcases ported : (Flow.ofFrame? packet).filter Flow.hasPorts with _ | flow
  · rw [send, route?, ported]
    exact .inl rfl
  · rcases chosen : state.choice? flow with _ | ⟨number, backend⟩
    · rw [send, route?, ported, Option.bind_some, chosen]
      exact .inl rfl
    · exact .inr ⟨flow, number, backend, rfl, chosen⟩

/-- Only backends that are there are chosen. -/
theorem backend?_of_choice?
    (chosen : state.choice? flow = some (number, backend)) :
      state.backend? number = some backend := by
  rcases Option.bind_eq_some_iff.mp chosen with ⟨number', _, held⟩
  rcases Option.map_eq_some_iff.mp held with ⟨backend', known, same⟩
  cases same
  exact known

/-- A flow without a connection goes to its slot. -/
theorem owner?_of_choice?
    (fresh : state.connections.find? flow.key = none)
    (chosen : state.choice? flow = some (number, backend)) :
    state.owner? (slotOf flow) = some number := by
  rw [choice?, fresh, Option.none_or] at chosen
  rcases Option.bind_eq_some_iff.mp chosen with ⟨number', owned, held⟩
  rcases Option.map_eq_some_iff.mp held with ⟨backend', _, same⟩
  cases same
  exact owned

/-- Backends in use stay when another one comes. -/
theorem backend?_add
    (known : state.backend? number = some backend) (backend' : Backend) :
    (state.add backend').2.backend? number = some backend := by
  rw [add]
  split
  · exact known
  · split
    · exact known
    case h_2 free isFree =>
      rcases Array.findIdx?_eq_some_iff_getElem.mp isFree with ⟨inside, isNone, _⟩
      rw [backend?_set inside, if_neg ?_, known]
      rintro rfl
      rw [backend?, Array.getElem?_eq_getElem inside, Option.isNone_iff_eq_none.mp isNone] at known
      cases known

theorem connections_add (state : BalancerState) (backend : Backend) :
    (state.add backend).2.connections = state.connections := by
  rw [add]
  split
  · rfl
  · split <;> rfl

/-- No call changes how many connections are remembered. -/
theorem capacity_answer (call : BalancerCall) (state : BalancerState) :
    (state.answer call).2.connections.capacity = state.connections.capacity := by
  cases call with
  | add backend => exact congrArg RecencyList.capacity (state.connections_add backend)
  | remove number =>
      rw [answer, remove]
      split <;> rfl
  | run clock context area =>
      rcases state.send_cases context.packet with same | ⟨flow, number, backend, ported, chosen⟩
      · rw [answer, same]
      · rw [answer, send_of_choice ported chosen]
        exact RecencyList.capacity_update _ _ _ _
  | connection flow => exact RecencyList.capacity_lookup _ _
  | select flow => exact RecencyList.capacity_lookup _ _

theorem capacity_answerAll (calls : List BalancerCall) (state : BalancerState) :
    (answerAll answer calls state).2.connections.capacity = state.connections.capacity := by
  induction calls generalizing state with
  | nil => rfl
  | cons call calls continues => exact (continues _).trans (capacity_answer call state)

/-! ## A connection since it began -/

/-- How things stand with a connection to a backend after these calls, the first of which was the
packet it began with.  While no backend has come it is not needed, since the slot leads to the same
backend; and it is there unless there were too many other flows after its last packet. -/
structure Steady (state : BalancerState) (room : Nat) (flow : Flow) (number : Nat)
    (backend : Backend) (past : List BalancerCall) : Prop where
  capacity : state.connections.capacity = room
  known : state.backend? number = some backend
  owned : (∀ call ∈ past, call.isAddition = false) → state.owner? (slotOf flow) = some number ∧
    ∀ entry ∈ state.connections.entries, entry.1 = flow.key → entry.2 = number
  recent : ∃ before last between, past = before ++ last :: between ∧ last.flow? = some flow ∧
    (∀ call ∈ between, call.flow? ≠ some flow) ∧
      ((others flow between).card < room →
        state.connections.HasBefore flow.key number ((others flow between).image Flow.key))

namespace Steady

variable {room : Nat}

/-- The next packet of the connection goes to the same backend. -/
theorem choice?
    (steady : state.Steady room flow number backend past)
    (spaced : Spaced room flow (past ++ [call]))
    (ported : call.flow? = some flow) : state.choice? flow = some (number, backend) := by
  have goes (found : (state.connections.find? flow.key).or (state.owner? (slotOf flow)) =
      some number) : state.choice? flow = some (number, backend) := by
    rw [BalancerState.choice?, found, Option.bind_some, steady.known]
    rfl
  rcases steady.recent with ⟨before, last, between, rfl, isLast, apart, recent⟩
  rcases spaced before last between call [] rfl isLast ported apart with few | calm
  · exact goes (by rw [(recent few).find?, Option.some_or])
  · rcases steady.owned calm with ⟨owner, same⟩
    rcases found : state.connections.find? flow.key with _ | number'
    · exact goes (by rw [found, Option.none_or, owner])
    · have same : number' = number := same _ (RecencyList.mem_of_find? found) rfl
      exact goes (by rw [found, Option.some_or, same])

/-- The packet that a connection begins with. -/
theorem begins
    (fresh : state.connections.find? flow.key = none)
    (chosen : state.choice? flow = some (number, backend)) (ported : call.flow? = some flow) :
    (state.remember flow number).Steady state.connections.capacity flow number backend [call] where
  capacity := RecencyList.capacity_update _ _ _ _
  known :=
    have known : state.backend? number = some backend := backend?_of_choice? chosen
    known
  owned _ := by
    have owner : state.owner? (slotOf flow) = some number := owner?_of_choice? fresh chosen
    refine ⟨owner, fun entry listed same => ?_⟩
    rcases List.mem_cons.mp (RecencyList.entries_update listed) with rfl | old
    · rfl
    · rcases RecencyList.find?_of_mem_keys (List.mem_map_of_mem old) with ⟨value, found⟩
      rw [same, fresh] at found
      cases found
  recent := ⟨[], call, [], rfl, ported, by simp, fun _ => .update_self _ _ _ _⟩

/-- What becomes of the connection when a call is about something else. -/
theorem apart
    {after : BalancerState} (steady : state.Steady room flow number backend past)
    (differs : call.flow? ≠ some flow)
    (capacity : after.connections.capacity = state.connections.capacity)
    (known : after.backend? number = some backend)
    (owned : call.isAddition = false → after.backends = state.backends ∧
      ∀ entry ∈ after.connections.entries, entry.1 = flow.key → entry ∈ state.connections.entries)
    (keeps : ∀ between, (others flow (between ++ [call])).card < room →
      state.connections.HasBefore flow.key number ((others flow between).image Flow.key) →
        after.connections.HasBefore flow.key number
          ((others flow (between ++ [call])).image Flow.key)) :
    after.Steady room flow number backend (past ++ [call]) where
  capacity := capacity.trans steady.capacity
  known := known
  owned calm := by
    rcases List.forall_mem_append.mp calm with ⟨calm, calm'⟩
    rcases owned (calm' call List.mem_cons_self) with ⟨same, old⟩
    rcases steady.owned calm with ⟨owner, held⟩
    have owners : after.owner? (slotOf flow) = state.owner? (slotOf flow) := by
      rw [owner?, owner?, active, active, same]
    exact ⟨owners.trans owner, fun entry listed key => held entry (old entry listed key) key⟩
  recent := by
    rcases steady.recent with ⟨before, last, between, rfl, isLast, others', recent⟩
    refine ⟨before, last, between ++ [call], by simp, isLast, ?_, fun few => ?_⟩
    · exact List.forall_mem_append.mpr
        ⟨others', fun other listed => List.mem_singleton.mp listed ▸ differs⟩
    · have fewer : (others flow between).card ≤ (others flow (between ++ [call])).card :=
        Finset.card_le_card (others_mono (List.subset_append_left between [call]))
      exact keeps between few (recent (lt_of_le_of_lt fewer few))

/-- Another backend comes. -/
theorem add
    (steady : state.Steady room flow number backend past) (backend' : Backend) :
    (state.add backend').2.Steady room flow number backend (past ++ [.add backend']) := by
  refine steady.apart (by simp [flow?]) ?_ (backend?_add steady.known backend')
    (fun calm => by cases calm) fun between _ has => ?_
  · rw [connections_add]
  · rw [connections_add]
    exact has.mono (Finset.image_subset_image (others_mono (List.subset_append_left _ _)))

/-- A packet is run. -/
theorem run
    (steady : state.Steady room flow number backend past) {clock : Clock} {context : PacketContext}
    {area : WorkArea} (spaced : Spaced room flow (past ++ [.run clock context area])) :
    (state.send context.packet).2.2.Steady room flow number backend
      (past ++ [.run clock context area]) := by
  by_cases own : flow? (.run clock context area) = some flow
  · rw [send_of_choice own (steady.choice? spaced own)]
    refine ⟨(RecencyList.capacity_update _ _ _ _).trans steady.capacity, steady.known,
      fun calm => ?_,
      past, _, [], rfl, own, by simp, fun _ => .update_self _ _ _ _⟩
    rcases steady.owned (List.forall_mem_append.mp calm).1 with ⟨owner, held⟩
    refine ⟨owner, fun entry listed same => ?_⟩
    rcases List.mem_cons.mp (RecencyList.entries_update listed) with rfl | old
    · rfl
    · exact held entry old same
  · rcases state.send_cases context.packet with same | ⟨other, number', backend', ported, chosen⟩
    · rw [same]
      exact steady.apart own rfl steady.known (fun _ => ⟨rfl, fun entry listed _ => listed⟩)
        fun between _ has => has.mono
          (Finset.image_subset_image (others_mono (List.subset_append_left _ _)))
    · rw [send_of_choice ported chosen]
      have differs : other ≠ flow := fun same => own (same ▸ ported)
      refine steady.apart own (RecencyList.capacity_update _ _ _ _) steady.known
        (fun _ => ⟨rfl, fun entry listed same => ?_⟩) fun between few has => ?_
      · rcases List.mem_cons.mp (RecencyList.entries_update listed) with rfl | old
        · exact absurd (Flow.key_injective same) differs
        · exact old
      · have within : (others flow between).image Flow.key ∪ {other.key} ⊆
            (others flow (between ++ [.run clock context area])).image Flow.key := by
          refine Finset.union_subset
            (Finset.image_subset_image (others_mono (List.subset_append_left _ _))) ?_
          rw [Finset.singleton_subset_iff]
          exact Finset.mem_image_of_mem _
            (mem_others differs (List.mem_append_right _ List.mem_cons_self) ported)
        have room' := (Finset.card_le_card within).trans Finset.card_image_le
        refine (has.update (fun same => differs (Flow.key_injective same)) number' ?_).mono within
        rw [steady.capacity]
        exact lt_of_le_of_lt room' few

/-- A flow that is remembered stays so over one more call, as long as others leave it room. -/
theorem answer
    (steady : state.Steady room flow number backend past)
    (spaced : Spaced room flow (past ++ [call]))
    (onward : call.isOnward = true) :
    (state.answer call).2.Steady room flow number backend (past ++ [call]) := by
  cases call with
  | add backend' => exact steady.add backend'
  | run clock context area => exact steady.run spaced
  | remove number => cases onward
  | connection flow => cases onward
  | select flow => cases onward

/-- So it stays after any number of calls. -/
theorem after
    {later : List BalancerCall} (steady : state.Steady room flow number backend past) :
    Spaced room flow (past ++ later) →
      (∀ call ∈ later, call.isOnward = true) →
        (answerAll BalancerState.answer later state).2.Steady room flow number backend
          (past ++ later) := by
  induction later generalizing state past with
  | nil => exact fun _ _ => by rwa [List.append_nil]
  | cons call later continues =>
      intro spaced onward
      rcases List.forall_mem_cons.mp onward with ⟨first, others⟩
      rw [List.append_cons] at spaced ⊢
      exact continues (steady.answer spaced.front first) spaced others

end Steady

end BalancerState

/-- A connection keeps its backend.  A flow without a connection has a packet redirected, and from
then on packets are run and backends are added.  Then every later packet of the flow is redirected
to the same backend and rewritten alike, provided that between two packets of the flow that follow
each other there are fewer other flows than connections are remembered, or no backend has been added
since the first of them all. -/
theorem loadBalancer_keeps_backend
    {maxConnections : Nat} {balancer : LoadBalancer} {store begun : Store}
    {program : VerifiedProgram}
    (created : (LoadBalancer.create maxConnections).run store = (.ok balancer, begun))
    (installed : balancer.Installed program) (calls : List BalancerCall) {flow : Flow}
    {clock : Clock} {context : PacketContext} {area : WorkArea} {later : List BalancerCall}
    {number : Nat} {packet : Bytes} :
    let first : BalancerCall := .run clock context area
    let reached := balancer.after program begun calls
    ((reached.1.connection flow).run reached.2).1 = .ok none →
      first.flow? = some flow →
      (LoadBalancer.serve program first reached).1 = .sent (.ok (.redirect number)) packet →
      (∀ call ∈ later, call.isOnward = true) →
        BalancerCall.Spaced maxConnections flow (first :: later) →
        ∃ backend : Backend, packet = backend.readdress context.packet ∧
          ∀ between clock context area rest, later = between ++ .run clock context area :: rest →
            BalancerCall.flow? (.run clock context area) = some flow →
              (LoadBalancer.serve program (.run clock context area)
                  (balancer.after program begun (calls ++ first :: between))).1 =
                .sent (.ok (.redirect number)) (backend.readdress context.packet) := by
  intro first reached fresh ported sent onward spaced
  have serves := LoadBalancer.serves_after created installed calls
  have serves' (between : List BalancerCall) :=
    LoadBalancer.serves_after created installed (calls ++ first :: between)
  have capacity := BalancerState.capacity_answerAll calls (.start maxConnections)
  simp only [answerAll_append, answerAll_cons] at serves'
  rcases LoadBalancer.shown_of_create created with ⟨rfl, _⟩
  generalize (answerAll BalancerState.answer calls (.start maxConnections)).2 = state
    at serves serves' capacity
  have unconnected : state.connections.find? flow.key = none := by
    rcases serves.shown.connection maxConnections serves.sound flow with ⟨after, run, _⟩
    rw [← serves.balancer] at run
    exact Except.ok.inj ((congrArg Prod.fst run).symm.trans fresh)
  have answered := (serves.serve installed first).1.symm.trans sent
  rcases state.send_cases context.packet with forwards | ⟨flow', number', backend, ported', chosen⟩
  · simp only [first, BalancerState.answer, forwards] at answered
    cases answered
  cases ported'.symm.trans ported
  have redirects := BalancerState.send_of_choice ported chosen
  have remembered : (state.answer first).2 = state.remember flow number' := by
    simp only [first, BalancerState.answer, redirects]
  simp only [first, BalancerState.answer, redirects] at answered
  cases answered
  refine ⟨backend, rfl, fun between clock context area rest split ported' => ?_⟩
  have begun := BalancerState.Steady.begins unconnected chosen ported
  rw [capacity] at begun
  rw [split, List.append_cons, ← List.cons_append, ← List.cons_append] at spaced
  have steady := begun.after spaced.front.front fun call listed =>
    onward call (split ▸ List.mem_append_left _ listed)
  have chosen' := steady.choice? spaced.front ported'
  rw [((serves' between).serve installed (.run clock context area)).1, remembered]
  simp only [BalancerState.answer, BalancerState.send_of_choice ported' chosen']

/-- A backend comes after the first packet of a connection and takes over its slot; the next packet
still goes where the first one went, and then another flow is seen.  With room for both the
connection keeps its backend. -/
theorem loadBalancer_keeps_backend_of_two :
    let first : Backend := ⟨⟨172, 16, 0, 5⟩, 8080⟩
    let packet (fill : UInt8) : Bytes :=
      .replicate 12 0 ++ #[8, 0, 0x45] ++ .replicate 8 0 ++ #[6] ++ .replicate 14 fill
    let run (fill : UInt8) : BalancerCall := .run (.still 0) { packet := packet fill } (.zeroed 512)
    let calls : List BalancerCall :=
      [.add first, run 1, .add ⟨⟨172, 16, 0, 7⟩, 8080⟩, run 1, run 2]
    ∃ balancer begun program, (LoadBalancer.create 2).run {} = (.ok balancer, begun) ∧
      balancer.Installed program ∧
      (LoadBalancer.serve program (run 1) (balancer.after program begun calls)).1 =
        .sent (.ok (.redirect 0)) (first.readdress (packet 1)) := by
  intro first packet run calls
  have creates :
    ((ApplicationAction.createMaps (LoadBalancer.schemas 2)).run {}).1.toOption.isSome := by
    decide +kernel
  rcases LoadBalancer.exists_installed creates with ⟨balancer, begun, program, created, installed⟩
  refine ⟨balancer, begun, program, created, installed, ?_⟩
  let flow : Flow := .tcp ⟨1, 1, 1, 1⟩ 257 ⟨1, 1, 1, 1⟩ 257
  have serves := LoadBalancer.serves_after created installed [.add first]
  let state := (answerAll BalancerState.answer [.add first] (.start 2)).2
  have ported : (run 1).flow? = some flow := by decide +kernel
  have fresh : (((balancer.after program begun [.add first]).1.connection flow).run
      (balancer.after program begun [.add first]).2).1 = .ok none := by
    have none : state.connections.find? flow.key = none := by decide +kernel
    rcases serves.shown.connection 2 serves.sound flow with ⟨after, run, _⟩
    rw [serves.balancer, run, none]
  have sent : (LoadBalancer.serve program (run 1) (balancer.after program begun [.add first])).1 =
      .sent (.ok (.redirect 0)) (first.readdress (packet 1)) := by
    have chosen : state.choice? flow = some (0, first) := by decide +kernel
    have sends := BalancerState.send_of_choice ported chosen
    rcases LoadBalancer.shown_of_create created with ⟨rfl, _⟩
    rw [(serves.serve installed (run 1)).1]
    simp only [run, BalancerState.answer]
    rw [sends]
  have few : (BalancerCall.others flow
      [run 1, .add ⟨⟨172, 16, 0, 7⟩, 8080⟩, run 1, run 2, run 1]).card < 2 := by
    decide +kernel
  rcases loadBalancer_keeps_backend created installed [.add first] fresh ported sent
    (by decide) (.of_few few) with ⟨backend, same, keeps⟩
  rw [same]
  exact keeps [.add ⟨⟨172, 16, 0, 7⟩, 8080⟩, run 1, run 2] 0 { packet := packet 1 } (.zeroed 512) []
    rfl ported

/-- With room for one connection only, the same calls lead to the other backend: no backend comes
between the last two packets of the flow, and there is no other flow between the two before. -/
theorem loadBalancer_loses_backend :
    let packet (fill : UInt8) : Bytes :=
      .replicate 12 0 ++ #[8, 0, 0x45] ++ .replicate 8 0 ++ #[6] ++ .replicate 14 fill
    let run (fill : UInt8) : BalancerCall := .run (.still 0) { packet := packet fill } (.zeroed 512)
    let other : BalancerCall := .add ⟨⟨172, 16, 0, 7⟩, 8080⟩
    let flow : Flow := .tcp ⟨1, 1, 1, 1⟩ 257 ⟨1, 1, 1, 1⟩ 257
    (∃ balancer begun program, (LoadBalancer.create 1).run {} = (.ok balancer, begun) ∧
      balancer.Installed program ∧
      (answerAll (LoadBalancer.serve program)
          [.add ⟨⟨172, 16, 0, 5⟩, 8080⟩, run 1, other, run 1, run 2, run 1] (balancer, begun)).1.map
        BalancerAnswer.target? = [none, some 0, none, some 0, some 1, some 1]) ∧
      (run 1).flow? = some flow ∧ (BalancerCall.others flow [other]).card < 1 ∧
        ∀ call ∈ [run 2], call.isAddition = false := by
  intro packet run other flow
  have creates :
    ((ApplicationAction.createMaps (LoadBalancer.schemas 1)).run {}).1.toOption.isSome := by
    decide +kernel
  rcases LoadBalancer.exists_installed creates with ⟨balancer, begun, program, created, installed⟩
  refine ⟨⟨balancer, begun, program, created, installed, ?_⟩, by decide +kernel,
    by decide, by decide⟩
  rcases LoadBalancer.shown_of_create created with ⟨rfl, _⟩
  rw [((LoadBalancer.serves_of_create created).follows installed _).1]
  decide +kernel

end PacketFilter
