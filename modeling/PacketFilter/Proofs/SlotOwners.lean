import PacketFilter.Proofs.BalancerService

/-!
# A load balancer in order

The backends of a balancer stand in four places: in its own table, in the map of
the backends, in the slots, and in the connections.  The control plane changes
them one after the other, and packets add connections in between.  They agree
after every call all the same: each slot belongs to the backend with the
greatest claim on it, the map of the backends is that of the table, and the
connections are those of backends in use.
-/

namespace PacketFilter

namespace LoadBalancer

/-- The backend of that number has the greatest claim on a slot. -/
def Strongest (backend? : Nat → Option Backend) (slot number : Nat) : Prop :=
  ∃ backend, backend? number = some backend ∧
    ∀ other rival, backend? other = some rival →
      claim slot (other, rival) ≤ claim slot (number, backend)

/-- The owner that a slot should have among these backends. -/
def Owner (backend? : Nat → Option Backend) (slot : Nat) : Option Nat → Prop
  | some number => Strongest backend? slot number
  | none => ∀ number, backend? number = none

/-- The backend under a number in the table of a balancer. -/
def backend? (balancer : LoadBalancer) (number : Nat) : Option Backend :=
  (balancer.backendTable[number]?).join

section

variable {backend? backend'? : Nat → Option Backend} {slot number : Nat}

/-- There is no other backend with so great a claim. -/
theorem Strongest.unique
    {first second : Nat} (one : Strongest backend? slot first)
    (two : Strongest backend? slot second) :
    first = second := by
  rcases one with ⟨backend, known, most⟩
  rcases two with ⟨backend', known', most'⟩
  have same := le_antisymm (most' first backend known) (most second backend' known')
  exact congrArg (fun claim => (ofLex claim).2) same

theorem Owner.unique
    {first? second? : Option Nat} (one : Owner backend? slot first?)
    (two : Owner backend? slot second?) : first? = second? := by
  rcases first? with _ | first <;> rcases second? with _ | second
  · rfl
  · rcases two with ⟨backend, known, _⟩
    cases (one second).symm.trans known
  · rcases one with ⟨backend, known, _⟩
    cases (two first).symm.trans known
  · exact congrArg some (Strongest.unique one two)

/-- The greatest claim of all is still the greatest when another backend is taken away. -/
theorem Strongest.less
    {first : Nat} (strongest : Strongest backend? slot first) (differs : first ≠ number)
    (gone : backend'? number = none) (others : ∀ other ≠ number, backend'? other = backend? other) :
    Strongest backend'? slot first := by
  rcases strongest with ⟨backend, known, most⟩
  refine ⟨backend, (others first differs).trans known, fun other rival held => ?_⟩
  by_cases same : other = number
  · cases gone.symm.trans (same ▸ held)
  · exact most other rival ((others other same).symm.trans held)

/-- A slot has the same owner without a backend that does not own it. -/
theorem Owner.less
    {owner? : Option Nat} (owner : Owner backend? slot owner?) (differs : owner? ≠ some number)
    (gone : backend'? number = none) (others : ∀ other ≠ number, backend'? other = backend? other) :
    Owner backend'? slot owner? := by
  rcases owner? with _ | first
  · intro other
    by_cases same : other = number
    · rw [same, gone]
    · rw [others other same, owner other]
  · exact Strongest.less owner (fun same => differs (congrArg some same)) gone others

end

end LoadBalancer

namespace BalancerState

open LoadBalancer

variable {state : BalancerState} {number slot : Nat} {backend : Backend}

theorem owner?_strongest (state : BalancerState) (slot : Nat) :
    Owner state.backend? slot (state.owner? slot) := by
  rcases owned : state.owner? slot with _ | number
  · intro number
    rcases known : state.backend? number with _ | backend
    · rfl
    · have listed := mem_active.mpr known
      rw [strongest?_eq_none.mp owned] at listed
      cases listed
  · rcases strongest?_claims owned with ⟨backend, listed, most⟩
    exact ⟨backend, mem_active.mp listed, fun other rival held =>
      most (other, rival) (mem_active.mpr held)⟩

/-- A backend that is put under a free number takes slots, and leaves the others alone. -/
theorem owner?_add
    (added : (state.add backend).1 = .ok number) :
    (state.add backend).2.owner? slot = state.owner? slot ∨
      (state.add backend).2.owner? slot = some number := by
  rcases used : state.backends.findIdx? (· = some backend) with _ | known
  · rcases free : state.backends.findIdx? Option.isNone with _ | fresh
    · simp only [add, used, free, true_or]
    · simp only [add, used, free] at added ⊢
      cases added
      rcases Array.findIdx?_eq_some_iff_getElem.mp free with ⟨inside, isNone, _⟩
      have unused : state.backend? number = none := by
        rw [backend?, Array.getElem?_eq_getElem inside, Option.isNone_iff_eq_none.mp isNone]
        rfl
      refine or_iff_not_imp_right.mpr fun differs => ?_
      refine Owner.unique
        (Owner.less (owner?_strongest _ slot) differs unused fun other apart => ?_)
        (state.owner?_strongest slot)
      rw [backend?_set inside, if_neg apart]
  · simp only [add, used, true_or]

/-- A backend that is taken out of use gives up its slots, and leaves the others alone. -/
theorem owner?_remove (sound : state.Sound) (number slot : Nat) :
    (state.remove number).2.owner? slot = state.owner? slot ∨ state.owner? slot = some number := by
  rw [remove]
  rcases known : state.backend? number with _ | held
  · exact .inl rfl
  · have inside : number < state.backends.size := sound.size ▸ sound.lt known
    refine or_iff_not_imp_right.mpr fun differs => (Owner.unique (Owner.less
      (state.owner?_strongest slot) differs ?_ fun other apart => ?_)
      (owner?_strongest _ slot)).symm
    · exact (backend?_set inside number).trans (if_pos rfl)
    · exact (backend?_set inside other).trans (if_neg apart)

end BalancerState

namespace LoadBalancer

/-- The table of a balancer and its maps agree, and its next operations keep to their part of the
maps. -/
structure InOrder (balancer : LoadBalancer) (store : Store) : Prop where
  /-- In every slot stands the backend with the greatest claim, or the mark for none. -/
  slots : ∀ slot < slotCount, ∃ owner?, Owner balancer.backend? slot owner? ∧
    (balancer.slots.get slot).run store =
      (.ok (some (BitVec.ofNat 64 (owner?.getD noBackend))), store)
  /-- The entries of the backends in the table say that they are in use, and only those. -/
  entries : ∀ number < backendCount, ∃ entry,
    (balancer.backendEntries.get number).run store = (.ok (some entry), store) ∧
      (entry.isActive = true ↔ ∃ backend, balancer.backend? number = some backend) ∧
      ∀ backend, balancer.backend? number = some backend → entry = .ofBackend backend
  numbers : ∀ (number : Nat) (backend : Backend), balancer.backend? number = some backend →
    number < backendCount
  /-- No backend has two numbers. -/
  distinct : ∀ (first second : Nat) (backend : Backend), balancer.backend? first = some backend →
    balancer.backend? second = some backend → first = second
  /-- Every connection has the number of a backend in use. -/
  connections : ∃ map, store.map? balancer.connections.map = some map ∧
    ∀ key ∈ map.keys, ∃ number backend, balancer.backend? number = some backend ∧
      ((Map.lookup key).run map).1 = .ok (some ((Layout.word 8).encode (BitVec.ofNat 64 number)))
  /-- Another backend only takes slots. -/
  added : ∀ backend number balancer' after,
    (balancer.addBackend backend).run store = (.ok (number, balancer'), after) →
      ∀ slot < slotCount,
        ((balancer'.slots.get slot).run after).1 = ((balancer.slots.get slot).run store).1 ∨
          ((balancer'.slots.get slot).run after).1 = .ok (some (BitVec.ofNat 64 number))
  /-- A backend that is removed only gives up slots. -/
  removed : ∀ number backend balancer' after,
    (balancer.removeBackend number).run store = (.ok (backend, balancer'), after) →
      ∀ slot < slotCount,
        ((balancer'.slots.get slot).run after).1 = ((balancer.slots.get slot).run store).1 ∨
          ((balancer.slots.get slot).run store).1 = .ok (some (BitVec.ofNat 64 number))
  addRefused : ∀ backend error after,
    (balancer.addBackend backend).run store = (.error error, after) → after = store
  removeRefused : ∀ number error after,
    (balancer.removeBackend number).run store = (.error error, after) → after = store

end LoadBalancer

namespace BalancerState.Shown

open LoadBalancer

variable {state : BalancerState} {number slot : Nat} {backend : Backend} {base : MapId}
variable {store : Store} (maxConnections : Nat)

theorem getSlot (sound : state.Sound) (shown : state.Shown base store) (inside : slot < slotCount) :
    ((state.balancer maxConnections base).slots.get slot).run store =
      (.ok (some (mark (state.owner? slot))), store) :=
  shown.run_getSlot maxConnections inside (mark_short sound.size slot)

theorem getEntry (shown : state.Shown base store) (inside : number < backendCount) :
    ∃ entry, ((state.balancer maxConnections base).backendEntries.get number).run store =
        (.ok (some entry), store) ∧
      (entry.isActive = true ↔ ∃ backend, state.backend? number = some backend) ∧
      ∀ backend, state.backend? number = some backend → entry = .ofBackend backend := by
  rcases shown.entries with ⟨map, there, schema, entries, arrays, lists⟩
  have keySize : map.schema.keySize = 4 := by rw [schema]; rfl
  refine ⟨entries number, TypedArray.run_get there keySize arrays inside
    (inside.trans (by decide)) (BackendEntry.layout_carries _), ?_, lists.used number⟩
  rcases known : state.backend? number with _ | backend
  · simp [lists.free number known]
  · rw [lists.used number backend known]
    simp [BackendEntry.isActive, BackendEntry.ofBackend, activeFlag]

theorem lookupConnections (sound : state.Sound) (shown : state.Shown base store) :
    ∃ map, store.map? base = some map ∧
      ∀ key ∈ map.keys, ∃ number backend, state.backend? number = some backend ∧
        ((Map.lookup key).run map).1 =
          .ok (some ((Layout.word 8).encode (BitVec.ofNat 64 number))) := by
  rcases shown.connections with ⟨map, there, lists⟩
  rcases lists.recalls with ⟨numbers, recalls⟩
  refine ⟨map, there, fun key listed => ?_⟩
  rw [recalls.map_keys] at listed
  rcases lists.keys key listed with ⟨flow, rfl⟩
  rw [RecencyList.keys_mapValues] at listed
  rcases RecencyList.find?_of_mem_keys listed with ⟨number, found⟩
  rcases sound.backend?_of_connection found with ⟨backend, known⟩
  rcases recalls.run_lookup (lists.key_size flow) with ⟨after, _, run, _⟩
  refine ⟨number, backend, known, ?_⟩
  rw [run, RecencyList.find?_mapValues, found]
  rfl

/-- A balancer is in order whenever its maps hold a state. -/
theorem inOrder (sound : state.Sound) (shown : state.Shown base store) :
    (state.balancer maxConnections base).InOrder store where
  slots slot inside := ⟨_, state.owner?_strongest slot, shown.getSlot maxConnections sound inside⟩
  entries number inside := shown.getEntry maxConnections inside
  numbers number backend known := sound.lt known
  distinct := sound.distinct
  connections := shown.lookupConnections sound
  added backend number balancer' after run slot inside := by
    rcases shown.add maxConnections sound backend with ⟨reached, run', shown', _⟩
    rcases added : (state.add backend).1 with error | number'
    all_goals
      rw [added] at run'
      cases run.symm.trans run'
    rw [shown'.getSlot maxConnections (sound.add backend) inside,
      shown.getSlot maxConnections sound inside]
    rcases owner?_add added with same | taken
    · exact .inl (by rw [same])
    · exact .inr (by rw [taken]; rfl)
  removed number backend balancer' after run slot inside := by
    rcases shown.remove maxConnections sound number with ⟨reached, run', shown', _⟩
    rcases removed : (state.remove number).1 with error | backend'
    all_goals
      rw [removed] at run'
      cases run.symm.trans run'
    rw [shown'.getSlot maxConnections (sound.remove number) inside,
      shown.getSlot maxConnections sound inside]
    rcases owner?_remove sound number slot with same | given
    · exact .inl (by rw [same])
    · exact .inr (by rw [given]; rfl)
  addRefused backend error after run := by
    rcases shown.add maxConnections sound backend with ⟨reached, run', _, refused⟩
    rcases added : (state.add backend).1 with error' | number
    all_goals
      rw [added] at run'
      cases run.symm.trans run'
    exact refused error added
  removeRefused number error after run := by
    rcases shown.remove maxConnections sound number with ⟨reached, run', _, refused⟩
    rcases removed : (state.remove number).1 with error' | backend
    all_goals
      rw [removed] at run'
      cases run.symm.trans run'
    exact refused error removed

end BalancerState.Shown

/-- A balancer that has been set up is in order after any series of calls, packets and operations of
the control plane. -/
theorem loadBalancer_stays_inOrder
    {maxConnections : Nat} {balancer : LoadBalancer} {store begun : Store}
    {program : VerifiedProgram}
    (created : (LoadBalancer.create maxConnections).run store = (.ok balancer, begun))
    (installed : balancer.Installed program) (calls : List BalancerCall) :
    let (balancer, reached) := balancer.after program begun calls
    balancer.InOrder reached := by
  have serves := LoadBalancer.serves_after created installed calls
  have inOrder := serves.shown.inOrder maxConnections serves.sound
  rw [← serves.balancer] at inOrder
  exact inOrder

/-- A packet of a new connection arrives between two backends, of which the first is removed. -/
theorem loadBalancer_inOrder_after_removal :
    let packet : Bytes := .replicate 12 0 ++ #[8, 0, 0x45] ++ .replicate 8 0 ++ #[6] ++
      .replicate 14 1
    ∃ balancer begun program, (LoadBalancer.create 2).run {} = (.ok balancer, begun) ∧
      balancer.Installed program ∧
      let (balancer, reached) := balancer.after program begun
        [.add ⟨⟨172, 16, 0, 5⟩, 8080⟩, .run (.still 0) { packet } (.zeroed 512),
          .add ⟨⟨172, 16, 0, 6⟩, 8080⟩, .remove 0]
      balancer.InOrder reached := by
  intro packet
  have creates :
    ((ApplicationAction.createMaps (LoadBalancer.schemas 2)).run {}).1.toOption.isSome := by
    decide +kernel
  rcases LoadBalancer.exists_installed creates with ⟨balancer, begun, program, created, installed⟩
  exact ⟨balancer, begun, program, created, installed,
    loadBalancer_stays_inOrder created installed _⟩

end PacketFilter
