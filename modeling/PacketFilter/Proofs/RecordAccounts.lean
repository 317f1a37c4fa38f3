import Mathlib.Data.List.Pairwise
import PacketFilter.Proofs.Reservations

/-!
# Accounts of reservations

What a run does about reservations, step by step, is an account of them: each one
that has been taken is open or has been committed once.  When the run is over,
whatever way it has ended, those that are open are discarded, and the account is
settled.
-/

namespace PacketFilter

namespace RecordDeed

/-- The reservation that is taken. -/
def taken? : RecordDeed → Option OpenRecord
  | opens _ record | passes record _ => some record
  | idle | closes .. => none

/-- The reservation that is committed, and whether it is discarded. -/
def committed? : RecordDeed → Option (OpenRecord × Bool)
  | passes record isDiscarded | closes _ record isDiscarded => some (record, isDiscarded)
  | idle | opens .. => none

/-- The reservations that are taken, in order. -/
def taken (deeds : List RecordDeed) : List OpenRecord :=
  deeds.filterMap taken?

/-- The reservations that are committed, in order. -/
def commits (deeds : List RecordDeed) : List (OpenRecord × Bool) :=
  deeds.filterMap committed?

theorem taken_snoc (deeds : List RecordDeed) (deed : RecordDeed) :
    taken (deeds ++ [deed]) = taken deeds ++ deed.taken?.toList := by
  rw [taken, List.filterMap_append]
  cases deed <;> rfl

theorem commits_snoc (deeds : List RecordDeed) (deed : RecordDeed) :
    commits (deeds ++ [deed]) = commits deeds ++ deed.committed?.toList := by
  rw [commits, List.filterMap_append]
  cases deed <;> rfl

variable {deeds : List RecordDeed} {record : OpenRecord} {address : Word}

/-- No reservation is taken by two steps. -/
theorem eq_of_taken
    {deed deed' : RecordDeed} (apart : (taken deeds).Nodup) (listed : deed ∈ deeds)
    (listed' : deed' ∈ deeds) (takes : deed.taken? = some record)
    (takes' : deed'.taken? = some record) : deed = deed' := by
  let Same (deed deed' : RecordDeed) : Prop :=
    deed.taken? = some record → deed'.taken? = some record → deed = deed'
  have pairs : deeds.Pairwise Same :=
    (List.pairwise_filterMap.mp apart).imp fun separate takes takes' =>
      absurd rfl (separate record takes record takes')
  have symmetric : Std.Symm Same := ⟨fun _ _ same takes takes' => (same takes' takes).symm⟩
  exact pairs.forall_of_forall (fun _ _ _ _ => rfl) listed listed' takes takes'

/-- Of the reservations that were handed out, those are submitted that are closed so. -/
theorem mem_commits_iff
    (apart : (taken deeds).Nodup)
    (backed : ∀ address isDiscarded, closes address record isDiscarded ∈ deeds →
      opens address record ∈ deeds)
    (handed : opens address record ∈ deeds) (isDiscarded : Bool) :
    (record, isDiscarded) ∈ commits deeds ↔ closes address record isDiscarded ∈ deeds := by
  rw [commits, List.mem_filterMap]
  constructor
  · rintro ⟨deed, listed, commits⟩
    cases deed with
    | idle => cases commits
    | opens other record' => cases commits
    | passes record' _ =>
        cases commits
        cases eq_of_taken apart handed listed rfl rfl
    | closes other record' _ =>
        cases commits
        cases eq_of_taken apart handed (backed other isDiscarded listed) rfl rfl
        exact listed
  · exact fun listed => ⟨_, listed, rfl⟩

end RecordDeed

/-! ## Balances -/

/-- After the deeds these reservations are open, the others that were taken have been committed, and
the rings are where this takes them. -/
structure Store.Balances (store : Store) (deeds : List RecordDeed) (waiting : List OpenRecord) :
    Prop where
  honors : store.Honors waiting (RecordDeed.commits deeds)
  balance : (waiting ++ (RecordDeed.commits deeds).map Prod.fst).Perm (RecordDeed.taken deeds)

namespace Store.Balances

variable {store store' : Store} {deeds : List RecordDeed} {waiting rest : List OpenRecord}
variable {record : OpenRecord} {address : Word} {isDiscarded : Bool}

theorem sameRings (balances : store.Balances deeds waiting) (same : store.SameRings store') :
    store'.Balances deeds waiting :=
  ⟨balances.honors.sameRings same, balances.balance⟩

theorem idle (balances : store.Balances deeds waiting) :
    store.Balances (deeds ++ [.idle]) waiting := by
  have commits : RecordDeed.commits (deeds ++ [.idle]) = RecordDeed.commits deeds :=
    (RecordDeed.commits_snoc _ _).trans (List.append_nil _)
  have taken : RecordDeed.taken (deeds ++ [.idle]) = RecordDeed.taken deeds :=
    (RecordDeed.taken_snoc _ _).trans (List.append_nil _)
  exact ⟨commits ▸ balances.honors, commits ▸ taken ▸ balances.balance⟩

theorem opens
    {length : Nat} (balances : store.Balances deeds waiting)
    (claims : store.onRing record.map (fun ring => ring.reserve length) =
      (some (some record.reservation), store')) (address : Word) :
    store'.Balances (deeds ++ [.opens address record]) (waiting ++ [record]) := by
  have commits : RecordDeed.commits (deeds ++ [.opens address record]) = RecordDeed.commits deeds :=
    (RecordDeed.commits_snoc _ _).trans (List.append_nil _)
  have last : (record :: waiting).Perm (waiting ++ [record]) :=
    (List.perm_append_singleton record waiting).symm
  refine ⟨commits ▸ (balances.honors.claim claims).perm last .rfl, ?_⟩
  rw [commits, RecordDeed.taken_snoc]
  refine (last.symm.append_right _).trans ?_
  exact (balances.balance.cons record).trans (List.perm_append_singleton record _).symm

theorem passes
    (balances : store.Balances deeds waiting)
    (honors : store'.Honors waiting ((record, isDiscarded) :: RecordDeed.commits deeds)) :
    store'.Balances (deeds ++ [.passes record isDiscarded]) waiting := by
  have last : ((record, isDiscarded) :: RecordDeed.commits deeds).Perm
      (RecordDeed.commits (deeds ++ [.passes record isDiscarded])) := by
    rw [RecordDeed.commits_snoc]
    exact (List.perm_append_singleton _ _).symm
  refine ⟨honors.perm .rfl last, ?_⟩
  rw [RecordDeed.taken_snoc]
  refine ((last.symm.map Prod.fst).append_left waiting).trans (List.perm_middle.trans ?_)
  exact (balances.balance.cons record).trans (List.perm_append_singleton record _).symm

theorem closes
    (balances : store.Balances deeds waiting) (listed : waiting.Perm (record :: rest))
    (address : Word) (isDiscarded : Bool) :
    (store.commit record isDiscarded).Balances (deeds ++ [.closes address record isDiscarded])
      rest := by
  have taken : RecordDeed.taken (deeds ++ [.closes address record isDiscarded]) =
      RecordDeed.taken deeds := (RecordDeed.taken_snoc _ _).trans (List.append_nil _)
  have last : ((record, isDiscarded) :: RecordDeed.commits deeds).Perm
      (RecordDeed.commits (deeds ++ [.closes address record isDiscarded])) := by
    rw [RecordDeed.commits_snoc]
    exact (List.perm_append_singleton _ _).symm
  refine ⟨((balances.honors.perm listed .rfl).commit isDiscarded).perm .rfl last, ?_⟩
  rw [taken]
  refine ((last.symm.map Prod.fst).append_left rest).trans (List.perm_middle.trans ?_)
  exact (listed.symm.append_right _).trans balances.balance

end Store.Balances

/-! ## Records under their addresses -/

/-- The record of every address was taken before, and handed out under that address. -/
structure Memory.Handed (memory : Memory) (deeds : List RecordDeed) : Prop where
  numbers : ∀ address number, memory.recordNumber? address = some number →
    number < memory.records.size
  opened : ∀ address number record, memory.recordNumber? address = some number →
    memory.record? number = some record → .opens address record ∈ deeds

namespace Memory

variable {memory memory' : Memory} {deeds deeds' : List RecordDeed} {record : OpenRecord}
variable {address : Word}

theorem Handed.mono
    (handed : memory.Handed deeds) (numbers : memory'.recordNumber? = memory.recordNumber?)
    (size : memory.records.size ≤ memory'.records.size)
    (held : ∀ number record, number < memory.records.size → memory'.record? number = some record →
      memory.record? number = some record)
    (longer : deeds ⊆ deeds') : memory'.Handed deeds' where
  numbers address number named := (handed.numbers address number (numbers ▸ named)).trans_le size
  opened address number record named there := by
    rw [numbers] at named
    exact longer (handed.opened address number record named
      (held number record (handed.numbers address number named) there))

theorem Handed.same
    (handed : memory.Handed deeds) (numbers : memory'.recordNumber? = memory.recordNumber?)
    (records : memory'.records = memory.records) (longer : deeds ⊆ deeds') :
    memory'.Handed deeds' := by
  refine handed.mono numbers (by rw [records]) (fun number record _ there => ?_) longer
  rw [record?, records] at there
  exact there

theorem Handed.addRecord
    (handed : memory.Handed deeds) (added : memory.addRecord record = (some address, memory')) :
    memory'.Handed (deeds ++ [.opens address record]) := by
  rcases addRecord_eq_some added with ⟨short, rfl, rfl⟩
  have held := @record?_push memory
    (push { memory with records := memory.records.push (some record) }
      (.record memory.records.size)) record rfl
  have numbers := fun address => @recordNumber?_push
    { memory with records := memory.records.push (some record) } short
    (.record memory.records.size) address
  have size : (push { memory with records := memory.records.push (some record) }
      (.record memory.records.size)).records.size = memory.records.size + 1 :=
    Array.size_push _
  constructor
  · intro address number named
    rw [size]
    rw [numbers] at named
    split at named
    · cases named
      exact Nat.lt_succ_self _
    · exact Nat.lt_succ_of_lt (handed.numbers address number named)
  · intro address number other named there
    rw [numbers] at named
    rw [held] at there
    split at named
    case isTrue here =>
      cases named
      rw [if_pos rfl] at there
      cases there
      rw [here]
      exact List.mem_append_right _ List.mem_cons_self
    case isFalse =>
      rw [if_neg (Nat.ne_of_lt (handed.numbers address number named))] at there
      exact List.mem_append_left _ (handed.opened address number other named there)

theorem openRecords_push
    (pushed : memory'.records = memory.records.push (some record)) :
    memory'.openRecords = memory.openRecords ++ [record] := by
  rw [openRecords, openRecords, pushed, Array.toList_push, List.filterMap_append]
  rfl

/-- A record that is taken back is missing from those that are open. -/
theorem openRecords_clear
    {number : Nat} (held : memory.record? number = some record)
    (taken : memory'.records = memory.records.setIfInBounds number none) :
    memory.openRecords.Perm (record :: memory'.openRecords) := by
  have there : memory.records.toList[number]? = some (some record) := by
    rw [Array.getElem?_toList]
    exact Option.join_eq_some_iff.mp held
  rcases List.getElem?_eq_some_iff.mp there with ⟨inside, here⟩
  have before : memory.records.toList =
      memory.records.toList.take number ++ some record ::
        memory.records.toList.drop (number + 1) := by
    rw [← here, ← List.drop_eq_getElem_cons inside, List.take_append_drop]
  have after : memory'.records.toList =
      memory.records.toList.take number ++ none :: memory.records.toList.drop (number + 1) := by
    rw [taken, Array.toList_setIfInBounds, List.set_eq_take_append_cons_drop, if_pos inside]
  rw [openRecords, openRecords, before, after, List.filterMap_append, List.filterMap_append]
  exact List.perm_middle

theorem store_discardOpen (memory : Memory) :
    memory.discardOpen.store =
      memory.openRecords.foldl (fun store record => store.commit record true) memory.store :=
  (List.foldl_hom Memory.store fun _ _ => rfl).symm

/-- The deeds account for the records that are open, and for the rings. -/
structure Accounts (memory : Memory) (deeds : List RecordDeed) : Prop where
  balances : memory.store.Balances deeds memory.openRecords
  handed : memory.Handed deeds

theorem accounts_of_none (none : memory.records = #[]) (regions : memory.regions = #[]) :
    memory.Accounts [] := by
  have numbers (address : Word) : memory.recordNumber? address = .none := by
    have outside (region : Nat) : memory.region? region = .none := by
      rw [region?, regions]
      split <;> rfl
    rw [recordNumber?, outside]
    exact ite_self _
  have waiting : memory.openRecords = [] := by
    rw [openRecords, none]
    rfl
  refine ⟨?_, ?_, ?_⟩
  · rw [waiting]
    exact ⟨.none memory.store, .rfl⟩
  · intro address number named
    rw [numbers] at named
    cases named
  · intro address number record named
    rw [numbers] at named
    cases named

end Memory

/-! ## Steps -/

section

variable {before after : Memory} {argument : RegisterName → Word} {answer : Word}
variable {helper : Helper} {deed : RecordDeed} {deeds : List RecordDeed}

theorem Memory.Quiet.accounts (quiet : before.Quiet after) (accounts : before.Accounts deeds) :
    after.Accounts deeds := by
  have waiting : after.openRecords = before.openRecords := by
    rw [Memory.openRecords, Memory.openRecords, quiet.records]
  refine ⟨waiting ▸ accounts.balances.sameRings quiet.rings, ?_⟩
  exact accounts.handed.same quiet.numbers quiet.records (List.Subset.refl deeds)

theorem Memory.Accounts.idle (accounts : after.Accounts deeds) :
    after.Accounts (deeds ++ [.idle]) :=
  ⟨accounts.balances.idle, accounts.handed.same rfl rfl (List.subset_append_left _ _)⟩

/-- A record that is taken back and committed. -/
theorem Memory.Accounts.release
    {address : Word} {record : OpenRecord} {released : Memory}
    (accounts : before.Accounts deeds) (taken : before.release? address = some (record, released))
    (isDiscarded : Bool) :
    (released.complete record isDiscarded).Accounts
      (deeds ++ [.closes address record isDiscarded]) := by
  rcases Memory.release?_eq_some taken with ⟨number, _, held, rfl⟩
  refine ⟨accounts.balances.closes (Memory.openRecords_clear held rfl) address isDiscarded, ?_⟩
  refine accounts.handed.mono rfl (Array.size_setIfInBounds).ge ?_ (List.subset_append_left _ _)
  intro other record' _ there
  rw [@Memory.record?_clear before _ number rfl] at there
  split at there
  case isTrue => cases there
  case isFalse => exact there

theorem Helper.Does.accounts
    (does : helper.Does before argument answer after deed) (accounts : before.Accounts deeds) :
    after.Accounts (deeds ++ [deed]) := by
  have longer : deeds ⊆ deeds ++ [deed] := List.subset_append_left _ _
  cases does with
  | idles _ _ quiet => exact (quiet.accounts accounts).idle
  | outputs queued stored =>
      subst stored
      exact ⟨accounts.balances.passes (accounts.balances.honors.output queued),
        accounts.handed.same rfl rfl longer⟩
  | @reserves record store claims handed =>
      have known : Memory.Handed { before with store } deeds :=
        accounts.handed.same rfl rfl (List.Subset.refl deeds)
      refine ⟨?_, known.addRecord handed⟩
      rcases Memory.addRecord_eq_some handed with ⟨_, _, rfl⟩
      rw [@Memory.openRecords_push before _ record rfl]
      exact accounts.balances.opens claims _
  | drops claims dropped =>
      cases Memory.addRecord_eq_none dropped
      exact ⟨accounts.balances.passes ((accounts.balances.honors.claim claims).commit true),
        accounts.handed.same rfl rfl longer⟩
  | submits taken committed => exact committed ▸ accounts.release taken false
  | discards taken committed => exact committed ▸ accounts.release taken true

end

/-! ## Runs -/

namespace Machine

/-- From the machine, at most so many steps do the deeds, and one by one lead to the end: the budget
is spent, a step fails, or the program exits.  A step that fails leaves reservations alone, and they
are not why. -/
inductive Performs (setup : Setup) :
    Nat → Machine → List RecordDeed → Except Fault Word × Machine → Prop
  | spent (machine : Machine) :
      Performs setup 0 machine [] (.error (.budgetExceeded setup.budget), machine)
  | fails {steps : Nat} {machine after : Machine} {fault : Fault}
      (failed : (Execution.step setup).run machine = (.error fault, after))
      (quiet : machine.memory.Quiet after.memory) (other : fault ≠ .unreleasedReservation) :
      Performs setup (steps + 1) machine [] (.error fault, after)
  | exits {steps : Nat} {machine after : Machine} {code : Word}
      (exited : (Execution.step setup).run machine = (.ok (some code), after))
      (same : after.memory = machine.memory) :
      Performs setup (steps + 1) machine [] (.ok code, after)
  | goes {steps : Nat} {machine after : Machine} {deed : RecordDeed} {deeds : List RecordDeed}
      {ended : Except Fault Word × Machine}
      (moved : (Execution.step setup).run machine = (.ok none, after))
      (does : machine.Does setup after deed) (rest : Performs setup steps after deeds ended) :
      Performs setup (steps + 1) machine (deed :: deeds) ended

variable {setup : Setup} {machine : Machine} {deeds : List RecordDeed} {steps : Nat}
variable {ended : Except Fault Word × Machine}

theorem performs_runWithin (setup : Setup) (steps : Nat) :
    ∀ machine : Machine,
      ∃ deeds, machine.Performs setup steps deeds (machine.runWithin setup steps) := by
  induction steps with
  | zero => exact fun machine => ⟨[], .spent machine⟩
  | succ steps continues =>
      intro machine
      have ends := Execution.ends_step setup machine
      rw [Execution.Ends] at ends
      rw [runWithin]
      rcases ran : (Execution.step setup).run machine with ⟨fault | _ | code, after⟩ <;>
        rw [ran] at ends
      · exact ⟨[], .fails ran ends.1 ends.2⟩
      · rcases ends with ⟨deed, does⟩
        rcases continues after with ⟨deeds, rest⟩
        exact ⟨deed :: deeds, .goes ran does rest⟩
      · exact ⟨[], .exits ran ends⟩

theorem Does.accounts
    {after : Machine} {deed : RecordDeed} (does : machine.Does setup after deed)
    (accounts : machine.memory.Accounts deeds) : after.memory.Accounts (deeds ++ [deed]) := by
  rcases does with ⟨operation, _, does⟩
  cases does with
  | plain _ quiet => exact (quiet.accounts accounts).idle
  | calls _ does => exact does.accounts accounts

/-- What is committed by its address has been handed out under it. -/
theorem Does.backed
    {after : Machine} {address : Word} {record : OpenRecord} {isDiscarded : Bool}
    (does : machine.Does setup after (.closes address record isDiscarded))
    (handed : machine.memory.Handed deeds) : .opens address record ∈ deeds := by
  rcases does with ⟨operation, _, does⟩
  cases does with
  | calls _ does =>
      cases does with
      | submits taken _ =>
          rcases Memory.release?_eq_some taken with ⟨number, named, held, _⟩
          exact handed.opened _ number record named held
      | discards taken _ =>
          rcases Memory.release?_eq_some taken with ⟨number, named, held, _⟩
          exact handed.opened _ number record named held

namespace Performs

/-- The deeds of a run account for what it leaves. -/
theorem accounts (performs : machine.Performs setup steps deeds ended) :
    ∀ {earlier : List RecordDeed}, machine.memory.Accounts earlier →
      ended.2.memory.Accounts (earlier ++ deeds) := by
  induction performs with
  | spent machine => exact fun accounts => (List.append_nil _).symm ▸ accounts
  | fails failed quiet _ => exact fun accounts => (List.append_nil _).symm ▸ quiet.accounts accounts
  | exits exited same => exact fun accounts => (List.append_nil _).symm ▸ same ▸ accounts
  | goes moved does rest continues =>
      intro earlier accounts
      have whole := continues (does.accounts accounts)
      rw [List.append_assoc] at whole
      exact whole

/-- A reservation is committed by the address under which a step before has handed it out. -/
theorem backed
    (performs : machine.Performs setup steps deeds ended) :
    ∀ {earlier : List RecordDeed}, machine.memory.Accounts earlier →
      ∀ {before after : List RecordDeed} {address : Word} {record : OpenRecord}
        {isDiscarded : Bool},
        deeds = before ++ .closes address record isDiscarded :: after →
          .opens address record ∈ earlier ++ before := by
  induction performs with
  | spent | fails | exits =>
      intro earlier accounts before after address record isDiscarded parts
      cases before <;> cases parts
  | goes moved does rest continues =>
      intro earlier accounts before after address record isDiscarded parts
      rcases before with _ | ⟨first, before⟩ <;> cases parts
      · rw [List.append_nil]
        exact does.backed accounts.handed
      · have whole := continues (does.accounts accounts) rfl
        rw [List.append_assoc] at whole
        exact whole

/-- No step fails because a reservation is open. -/
theorem ne_unreleased (performs : machine.Performs setup steps deeds ended) :
    ended.1 ≠ .error .unreleasedReservation := by
  induction performs with
  | spent => exact fun same => by cases same
  | fails failed quiet other => exact fun same => other (Except.error.inj same)
  | exits => exact fun same => by cases same
  | goes moved does rest continues => exact continues

end Performs

/-- Closing a run complains of open records if there are any at an exit, and of nothing else. -/
theorem close_unreleased
    {result : Except Fault Word} (other : result ≠ .error .unreleasedReservation)
    (machine : Machine) :
    (machine.close result).1 = .error .unreleasedReservation ↔
      (∃ code, result = .ok code) ∧ machine.memory.openRecords ≠ [] := by
  rcases result with fault | code
  · constructor
    · exact fun same => absurd same other
    · rintro ⟨⟨code, same⟩, _⟩
      cases same
  · rw [close]
    split
    case isTrue none =>
      constructor
      · exact fun same => by cases same
      · exact fun held => absurd (List.isEmpty_iff.mp none) held.2
    case isFalse some =>
      exact ⟨fun _ => ⟨⟨code, rfl⟩, fun none => some (List.isEmpty_iff.mpr none)⟩, fun _ => rfl⟩

/-- Whatever way a run ends, each reservation that it took has been committed once: by the program,
under the address under which it was handed out, or as discarded when the run was closed.  It was
submitted if the program submitted it, and discarded otherwise.  Rings show so.  The run complains
of open reservations if there are any at an exit, and only then. -/
theorem run_commits_reservations (setup : Setup) (memory : Memory) :
    let machine := Machine.start { memory with regions := #[], records := #[] }
    let ended := machine.runWithin setup setup.budget
    let closed := machine.run setup
    let left := ended.2.memory.openRecords
    ∃ deeds, machine.Performs setup setup.budget deeds ended ∧
      let commits := RecordDeed.commits deeds ++ left.map fun record => (record, true)
      ((RecordDeed.taken deeds).map OpenRecord.place).Nodup ∧
      (commits.map Prod.fst).Perm (RecordDeed.taken deeds) ∧
      (∀ earlier later address record isDiscarded,
        deeds = earlier ++ .closes address record isDiscarded :: later →
          .opens address record ∈ earlier) ∧
      (∀ address record, .opens address record ∈ deeds →
        ((record, false) ∈ commits ↔ .closes address record false ∈ deeds)) ∧
      closed.2.memory.store =
        left.foldl (fun store record => store.commit record true) ended.2.memory.store ∧
      (∀ commit ∈ commits, closed.2.memory.store.HasCommitted commit.1 commit.2) ∧
      (closed.1 = .error .unreleasedReservation ↔ (∃ code, ended.1 = .ok code) ∧ left ≠ []) := by
  intro machine ended closed left
  rcases performs_runWithin setup setup.budget machine with ⟨deeds, performs⟩
  -- The account is balanced at the start, each deed keeps it so, and closing settles what is open.
  have begins : machine.memory.Accounts [] := Memory.accounts_of_none rfl rfl
  have accounts : ended.2.memory.Accounts deeds := performs.accounts begins
  have store : closed.2.memory.store =
      left.foldl (fun store record => store.commit record true) ended.2.memory.store := by
    rw [← Memory.store_discardOpen]
    exact congrArg Memory.store (close_memory ended.1 ended.2)
  have honors := Store.Honors.commitAll left true accounts.balances.honors
  have settled : ((RecordDeed.commits deeds ++ left.map fun record => (record, true)).map
      Prod.fst).Perm (RecordDeed.taken deeds) := by
    refine List.Perm.trans ?_ accounts.balances.balance
    rw [List.map_append, List.map_map]
    exact List.perm_append_comm.trans (.of_eq (congrArg (· ++ _) (List.map_id left)))
  have apart : ((RecordDeed.taken deeds).map OpenRecord.place).Nodup :=
    ((accounts.balances.balance.map OpenRecord.place).nodup_iff).mp accounts.balances.honors.apart
  refine ⟨deeds, performs, apart, settled, ?_, ?_, store, ?_, close_unreleased ?_ ended.2⟩
  · intro earlier later address record isDiscarded parts
    exact performs.backed begins parts
  · intro address record handed
    have backed (address : Word) (isDiscarded : Bool)
        (listed : .closes address record isDiscarded ∈ deeds) : .opens address record ∈ deeds := by
      rcases List.append_of_mem listed with ⟨earlier, later, parts⟩
      rw [parts]
      exact List.mem_append_left _ (performs.backed begins parts)
    rw [← RecordDeed.mem_commits_iff (.of_map _ apart) backed handed false, List.mem_append,
      or_iff_left]
    intro discarded
    rcases List.mem_map.mp discarded with ⟨_, _, absurdity⟩
    cases absurdity
  · intro commit listed
    rw [store]
    exact honors.committed commit (List.perm_append_comm.mem_iff.mp listed)
  · exact performs.ne_unreleased

end Machine

end PacketFilter
