import PacketFilter.Proofs.Exploration
import PacketFilter.Proofs.Renaming
import PacketFilter.Verifier.Basic

/-!
# Pruning

A walk that ends paths at states like ones seen before ends as the exploration
that goes through all of them does, as long as that one ends at all.  Exploring
a place seen before comes, some iterations later, to exploring what is still
left of it; so where nothing is left of it, its twin can be passed over.
Something is left of it only on the paths that start there, and these never
come to its twin: from there on the exploration would go round for ever.
-/

namespace PacketFilter

variable {journey : Journey}

/-! ## What is left of a place -/

/-- Exploring the place comes some iterations later to exploring the places in front. -/
def Journey.Unfolds (journey : Journey) (place : Place) (front : List Place) : Prop :=
  ∀ ⦃rest : List Place⦄ ⦃steps : Nat⦄ ⦃ending : Ending⦄,
    journey.EndsAfter (place :: rest) steps ending →
      ∃ fewer < steps, journey.EndsAfter (front ++ rest) fewer ending

namespace Journey.Unfolds

variable {place next next' : Place} {front places : List Place}

/-- The first place may be replaced by a twin. -/
theorem twin_ends
    {rest : List Place} {steps : Nat} {ending : Ending}
    (ends : journey.EndsAfter (next :: rest) steps ending) (twins : Place.Twins next next') :
    journey.EndsAfter (next' :: rest) steps ending := by
  refine ends.twins (.cons twins (List.forall₂_same.mpr fun place listed => ?_))
  rcases ends with ⟨last, within, _⟩
  exact ⟨last, last, within place (List.mem_cons_of_mem _ listed)⟩

theorem twin (unfolds : journey.Unfolds next' front) (twins : Place.Twins next next') :
    journey.Unfolds next front :=
  fun _ _ _ ends => unfolds (twin_ends ends twins)

theorem of_expand
    {focus focus' : Focus} {position : Nat}
    (within : Place.Within focus.lastIdentity (position, focus.state))
    (made : journey.expand focus position = .ok (focus', places)) :
    journey.Unfolds (position, focus.state) places := by
  intro rest steps ending ends
  rcases ends.of_ok ⟨_, _, within⟩ within made with ⟨fewer, rfl, ends'⟩
  exact ⟨fewer, Nat.lt_succ_self fewer, ends'⟩

/-- The first of the places in front has been explored further. -/
theorem further
    (unfolds : journey.Unfolds place (next :: front)) (later : journey.Unfolds next places) :
    journey.Unfolds place (places ++ front) := by
  intro rest steps ending ends
  rcases unfolds ends with ⟨between, less, ends'⟩
  rcases later ends' with ⟨fewer, less', ends''⟩
  refine ⟨fewer, less'.trans less, ?_⟩
  rw [List.append_assoc]
  exact ends''

/-- An exploration that comes to a twin of a place before it is done with that place does not
end. -/
theorem not_ends
    (unfolds : journey.Unfolds place (next :: front)) (twins : Place.Twins next place)
    (steps : Nat) :
    ∀ {rest : List Place} {ending : Ending}, ¬ journey.EndsAfter (place :: rest) steps ending := by
  induction steps using Nat.strongRecOn with
  | ind steps none =>
      intro rest ending ends
      rcases unfolds ends with ⟨fewer, less, ends'⟩
      exact none fewer less (twin_ends ends' twins)

end Journey.Unfolds

/-! ## Walks that prune -/

/-- The places that wait mention no identities that have not been handed out, and what is left of
every place seen before is among the first of them. -/
structure Journey.Accounts (journey : Journey) (last : Nat) (explored : Array (List AbstractState))
    (waiting : List Place) : Prop where
  within : ∀ place ∈ waiting, Place.Within last place
  seen : ∀ (position : Nat) (state : AbstractState), state ∈ explored[position]?.getD [] →
    Place.Twins (position, state) (position, state) ∧
      ∃ front rest, waiting = front ++ rest ∧ journey.Unfolds (position, state) front

namespace Journey.Accounts

variable {last : Nat} {explored explored' : Array (List AbstractState)}
variable {place : Place} {rest places : List Place}

/-- What is left of a place seen before once the first place that waits has unfolded. -/
theorem unfolds
    {position : Nat} {state : AbstractState}
    (accounts : journey.Accounts last explored (place :: rest))
    (seen : state ∈ explored[position]?.getD []) (later : journey.Unfolds place places) :
    ∃ front waiting, places ++ rest = front ++ waiting ∧
      journey.Unfolds (position, state) front := by
  rcases accounts.seen position state seen with ⟨_, front, waiting, split, unfolds⟩
  cases front with
  | nil => exact ⟨[], places ++ rest, rfl, unfolds⟩
  | cons next front =>
      rcases List.cons.inj split with ⟨rfl, rfl⟩
      exact ⟨places ++ front, waiting, (List.append_assoc _ _ _).symm, unfolds.further later⟩

/-- A path ends at a place whose twin has been seen before, and nothing is left of that. -/
theorem prune
    {position : Nat} {state : AbstractState}
    {steps : Nat} {ending : Ending} (accounts : journey.Accounts last explored (place :: rest))
    (seen : state ∈ explored[position]?.getD []) (twins : Place.Twins place (position, state))
    (ends : journey.EndsAfter (place :: rest) steps ending) :
    (∃ fewer < steps, journey.EndsAfter rest fewer ending) ∧
      journey.Accounts last explored rest := by
  have ends' := Unfolds.twin_ends ends twins
  have done : journey.Unfolds place [] := by
    rcases accounts.seen position state seen with ⟨_, front, waiting, split, unfolds⟩
    cases front with
    | nil => exact unfolds.twin twins
    | cons next front =>
        rcases List.cons.inj split with ⟨rfl, _⟩
        exact absurd ends' (unfolds.not_ends twins steps)
  refine ⟨done ends, fun place waits => accounts.within place (List.mem_cons_of_mem _ waits), ?_⟩
  intro position' state' seen'
  exact ⟨(accounts.seen position' state' seen').1, accounts.unfolds seen' done⟩

/-- The first place that waits is visited, and may be kept to compare with. -/
theorem visit
    {focus focus' : Focus} {position : Nat}
    (accounts : journey.Accounts focus.lastIdentity explored ((position, focus.state) :: rest))
    (made : journey.expand focus position = .ok (focus', places))
    (kept : ∀ (position' : Nat) (state : AbstractState), state ∈ explored'[position']?.getD [] →
      state ∈ explored[position']?.getD [] ∨ (position', state) = (position, focus.state)) :
    journey.Accounts focus'.lastIdentity explored' (places ++ rest) := by
  rcases List.forall_mem_cons.mp accounts.within with ⟨here, waiting⟩
  have later := Unfolds.of_expand here made
  refine ⟨?_, fun position' state seen => ?_⟩
  · have agree := @expand_alike journey _ _ _ here
    rw [made] at agree
    cases agree with
    | passed same =>
        rcases same with ⟨more, _, same⟩
        intro place listed
        rcases List.mem_append.mp listed with led | waits
        · exact (within_of_alike same).1 place led
        · exact (waiting place waits).grow more more
  · rcases kept position' state seen with before | current
    · exact ⟨(accounts.seen position' state before).1, accounts.unfolds before later⟩
    · rw [current]
      exact ⟨⟨_, _, here⟩, places, rest, rfl, later⟩

end Journey.Accounts

/-- What the walk comes to. -/
inductive Progress.EndsAs : Progress → Ending → Prop
  | accepted (final : Walk) : EndsAs (.finished final) .accepted
  | rejected (log : Log) (position : Nat) {cause cause' : RejectionCause}
      (same : cause.reason = cause'.reason) :
      EndsAs (.rejected log (.atSlot position cause)) (.rejected position cause'.reason)

/-- States alike make places twins. -/
theorem twins_of_isAlike
    {position : Nat} {state state' : AbstractState} (alike : state.isAlike state' = true)
    (here : Place.Twins (position, state) (position, state))
    (there : Place.Twins (position, state') (position, state')) :
    Place.Twins (position, state) (position, state') := by
  rcases here with ⟨_, last, here⟩
  rcases there with ⟨last', _, there⟩
  rcases Option.isSome_iff_exists.mp alike with ⟨matching, matched⟩
  rcases Renaming.ofStates_sound matched with ⟨oneToOne, states⟩
  exact ⟨last, last', here.within'.through (.inl ⟨rfl, rfl⟩) (Renaming.relates_biUnique oneToOne)
    states there.within⟩

namespace Walk

variable {walk : Walk} {position : Nat} {explored : Array (List AbstractState)} {budget : Nat}

/-- Where an iteration leads on, the walk ends as it does from there. -/
theorem Meets.run_ends
    {last : Nat} {places : List Place} {steps : Nat} {ending : Ending}
    (meets : Meets position explored (.ok (last, places)) (walk.step journey))
    (ends : journey.EndsAfter places steps ending)
    (goesOn : ∀ next : Walk, next.place :: next.aside = places → next.focus.lastIdentity = last →
      next.explored = explored → (next.run journey budget).EndsAs ending) :
    (walk.run journey (budget + 1)).EndsAs ending := by
  rw [run]
  generalize walk.step journey = progress at meets
  cases meets with
  | finished _ final =>
      rcases ends.nil with ⟨_, rfl⟩
      exact .accepted final
  | «continue» next opens handed same => exact goesOn next opens handed same

/-- A state like the one of a path that is pruned has been kept. -/
theorem exists_seen_of_isPruned (ends : walk.isPruned journey = true) :
    ∃ state ∈ walk.explored[walk.position]?.getD [], walk.focus.state.isAlike state = true :=
  List.any_eq_true.mp (Bool.and_eq_true_iff.mp ends).2

/-- A walk that prunes ends as the exploration does that does not. -/
theorem run_ends (journey : Journey) (budget : Nat) :
    ∀ {walk : Walk} {steps : Nat} {ending : Ending},
      journey.Accounts walk.focus.lastIdentity walk.explored (walk.place :: walk.aside) →
        journey.EndsAfter (walk.place :: walk.aside) steps ending → steps ≤ budget →
          (walk.run journey budget).EndsAs ending := by
  induction budget with
  | zero =>
      intro walk steps ending accounts ends le
      exact absurd ends.pos (Nat.not_lt_of_le le)
  | succ budget continues =>
      intro walk steps ending accounts ends le
      have here := accounts.within _ List.mem_cons_self
      rcases step_meets journey walk with ⟨pruned, meets⟩ | ⟨_, meets⟩
      · rcases exists_seen_of_isPruned pruned with ⟨state, seen, alike⟩
        have twins := twins_of_isAlike alike ⟨_, _, here⟩ (accounts.seen _ _ seen).1
        rcases accounts.prune seen twins ends with ⟨⟨fewer, less, ends'⟩, accounts'⟩
        refine meets.run_ends ends' fun next opens handed same => ?_
        refine @continues next fewer ending ?_ ?_ (by omega)
        · rwa [opens, handed, same]
        · rwa [opens]
      · cases made : journey.expand walk.focus walk.position with
        | error cause =>
            rw [made] at meets
            rcases ends.of_error ⟨_, _, here⟩ here made with ⟨_, rfl⟩
            rw [run]
            generalize walk.step journey = progress at meets
            cases meets
            exact .rejected _ _ rfl
        | ok found =>
            rw [made] at meets
            rcases ends.of_ok ⟨_, _, here⟩ here made with ⟨fewer, rfl, ends'⟩
            refine Meets.run_ends meets ends' fun next opens handed same => ?_
            refine @continues next fewer ending ?_ ?_ (by omega)
            · rw [opens, handed, same]
              exact accounts.visit made fun _ _ => mem_exploredAfter
            · rwa [opens]

end Walk

end PacketFilter
