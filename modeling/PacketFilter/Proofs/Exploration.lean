import PacketFilter.Proofs.Aligning
import PacketFilter.Proofs.Expansion

/-!
# Exploring without pruning

Places that correspond lead to places that correspond, whatever identities have
been handed out before.  So an exploration that never prunes ends the same way,
and after as many iterations, from places that correspond.
-/

namespace PacketFilter

/-! ## Edges -/

namespace AbstractState.Corresponds

variable {relates : Nat → Nat → Prop} {state state' : AbstractState}

theorem registerAt
    (zero : relates 0 0) (states : state.Corresponds relates state') (number : Nat) :
    ((state.registers[number]?).getD .uninitialized).Corresponds relates
      ((state'.registers[number]?).getD .uninitialized) := by
  by_cases small : number < 11
  · rw [Vector.getElem?_eq_getElem small, Vector.getElem?_eq_getElem small]
    exact states.registers ⟨number, small⟩
  · rw [Vector.getElem?_eq_none (Nat.le_of_not_lt small),
      Vector.getElem?_eq_none (Nat.le_of_not_lt small)]
    exact .uninitialized zero

/-- The limit of a loop is a scalar on both sides, with the same bounds. -/
theorem limitBounds
    (zero : relates 0 0) (states : state.Corresponds relates state') (limit : LoopLimit) :
    Journey.limitBounds state' limit = Journey.limitBounds state limit := by
  cases limit with
  | constant word => rfl
  | register number =>
      have values := states.registerAt zero number.toNat
      simp only [Journey.limitBounds, values.isScalar, values.bounds]

/-- Loops are bounded alike, as their bounds do not depend on identities. -/
theorem checkEdge
    (zero : relates 0 0) (states : state.Corresponds relates state') (journey : Journey)
    (source target : Nat) :
    journey.checkEdge source target state' = journey.checkEdge source target state := by
  have trips (loop : CountedLoop) :
      journey.checkTrips loop state' = journey.checkTrips loop state := by
    have values := states.registerAt zero loop.counter.toNat
    simp only [Journey.checkTrips, values.isScalar, values.bounds, states.limitBounds zero]
  simp only [Journey.checkEdge, trips]

end AbstractState.Corresponds

variable {journey : Journey}

theorem checkEdges_eq
    {relates : Nat → Nat → Prop} (zero : relates 0 0) {edges edges' : Edges}
    (same : edges.Corresponds relates edges') (position target : Nat) :
    journey.checkEdges position target edges'.taken? edges'.fall? =
      journey.checkEdges position target edges.taken? edges.fall? := by
  rcases edges with ⟨taken?, fall?⟩
  rcases edges' with ⟨taken?', fall?'⟩
  rcases same with ⟨taken, fall⟩
  dsimp only at taken fall ⊢
  cases taken with
  | none =>
      cases fall with
      | none => rfl
      | some falls => exact falls.checkEdge zero journey _ _
  | some takens =>
      cases fall with
      | none => exact takens.checkEdge zero journey _ _
      | some falls =>
          rw [Journey.checkEdges, Journey.checkEdges, falls.checkEdge zero, takens.checkEdge zero]

theorem checkCourse_eq
    {relates : Nat → Nat → Prop} (zero : relates 0 0) {course course' : Course}
    (same : course.Corresponds relates course') {state state' : AbstractState}
    (states : state.Corresponds relates state') (instruction : Instruction) (position : Nat) :
    journey.checkCourse instruction position state' course' =
      journey.checkCourse instruction position state course := by
  unfold Journey.checkCourse
  cases same with
  | next => exact states.checkEdge zero journey _ _
  | exit => rfl
  | jump =>
      cases instruction.jumpTarget? position journey.code.size with
      | none => rfl
      | some target => exact states.checkEdge zero journey _ _
  | branch edges =>
      cases instruction.jumpTarget? position journey.code.size with
      | none => rfl
      | some target => exact checkEdges_eq zero edges position target

/-! ## Places -/

/-- The places are at the same position and correspond. -/
structure Alignment.Places (alignment : Alignment) (place place' : Place) : Prop where
  position : place.1 = place'.1
  states : place.2.Corresponds alignment.relates place'.2

/-- Corresponding courses lead to corresponding places. -/
theorem leads_corresponds
    {alignment : Alignment} {course course' : Course}
    (same : course.Corresponds alignment.relates course') {state state' : AbstractState}
    (states : state.Corresponds alignment.relates state') (instruction : Instruction)
    (position length : Nat) :
    List.Forall₂ alignment.Places (course.leads state instruction position length)
      (course'.leads state' instruction position length) := by
  unfold Course.leads
  cases same with
  | next => exact .cons ⟨rfl, states⟩ .nil
  | exit => exact .nil
  | jump =>
      cases instruction.jumpTarget? position length with
      | none => exact .nil
      | some target => exact .cons ⟨rfl, states⟩ .nil
  | branch edges =>
      cases instruction.jumpTarget? position length with
      | none => exact .nil
      | some target =>
          have takens := rel_map edges.taken fun taken taken' same =>
            show alignment.Places (target, taken) (target, taken') from ⟨rfl, same⟩
          have falls := rel_map edges.fall fun fall fall' same =>
            show alignment.Places (position + 1, fall) (position + 1, fall') from ⟨rfl, same⟩
          exact List.rel_append (rel_toList takens) (rel_toList falls)

/-- What places that correspond lead to corresponds. -/
def Focus.ExpandsFurther (alignment : Alignment) (made made' : Focus × List Place) : Prop :=
  ∃ after, alignment.Extends after ∧ made.1.Aligned after made'.1 ∧
    List.Forall₂ after.Places made.2 made'.2

/-- Aligned sides expand alike, to places that correspond. -/
theorem Focus.Aligned.expand
    {alignment : Alignment} {focus focus' : Focus} (aligned : focus.Aligned alignment focus')
    (journey : Journey) (position : Nat) :
    Checked.Agree (Focus.ExpandsFurther alignment) (journey.expand focus position)
      (journey.expand focus' position) := by
  unfold Journey.expand
  cases journey.code[position]? with
  | none => exact .failed rfl
  | some instruction =>
      dsimp only
      cases journey.code.operation? position with
      | none => exact .failed rfl
      | some operation =>
          refine .bind (aligned.transfer operation) fun made made' same => ?_
          rcases same with ⟨after, further, made, courses⟩
          refine .bind_eq (checkCourse_eq after.zero courses made.state instruction position)
            fun _ => .passed ?_
          exact ⟨after, further, made, leads_corresponds courses made.state instruction position _⟩

/-! ## Places alike -/

/-- The places correspond, with so many identities handed out before them. -/
def Place.Alike (last last' : Nat) (place place' : Place) : Prop :=
  ∃ alignment : Alignment, alignment.last = last ∧ alignment.last' = last' ∧
    alignment.Places place place'

/-- The place mentions no identity that has not been handed out. -/
def Place.Within (last : Nat) (place : Place) : Prop :=
  Place.Alike last last place place

namespace Place.Alike

variable {last last' middle middle' : Nat} {place place' place'' : Place}

theorem position (alike : Place.Alike last last' place place') : place.1 = place'.1 := by
  rcases alike with ⟨_, _, _, same⟩
  exact same.position

theorem symm (alike : Place.Alike last last' place place') :
    Place.Alike last' last place' place := by
  rcases alike with ⟨alignment, rfl, rfl, same⟩
  exact ⟨alignment.symm, rfl, rfl, same.position.symm, same.states.symm⟩

/-- Being alike carries over. -/
theorem trans
    (first : Place.Alike last middle place place')
    (second : Place.Alike middle' last' place' place'') :
    Place.Alike last last' place place'' := by
  rcases first with ⟨alignment, rfl, _, same⟩
  rcases second with ⟨alignment', _, rfl, same'⟩
  exact ⟨alignment.trans alignment', rfl, rfl, same.position.trans same'.position,
    same.states.trans same'.states⟩

/-- Places are alike as well when renaming identities one to one makes them so. -/
theorem through
    {position : Nat} {relates : Nat → Nat → Prop} {state state' : AbstractState}
    (within : Place.Alike last last (position, state) (position, state)) (zero : relates 0 0)
    (oneToOne : Relator.BiUnique relates) (renamed : state.Corresponds relates state')
    (within' : Place.Alike last' last' (position, state') (position, state')) :
    Place.Alike last last' (position, state) (position, state') := by
  rcases within with ⟨alignment, rfl, _, same⟩
  rcases within' with ⟨alignment', _, rfl, same'⟩
  exact ⟨alignment.through zero oneToOne alignment', rfl, rfl, rfl,
    same.states.trans (renamed.trans same'.states)⟩

/-- More identities may have been handed out. -/
theorem grow
    (alike : Place.Alike last last' place place') (more : last ≤ middle) (more' : last' ≤ middle') :
    Place.Alike middle middle' place place' := by
  rcases alike with ⟨alignment, rfl, rfl, same⟩
  exact ⟨alignment.grow more more', rfl, rfl, same.position, same.states⟩

theorem within (alike : Place.Alike last last' place place') : Place.Within last place :=
  alike.trans alike.symm

theorem within' (alike : Place.Alike last last' place place') : Place.Within last' place' :=
  alike.symm.trans alike

end Place.Alike

/-- A place and its twin lead to places alike, or the program is turned away at both for the same
reason. -/
theorem expand_alike
    {focus focus' : Focus} {position : Nat}
    (alike : Place.Alike focus.lastIdentity focus'.lastIdentity (position, focus.state)
      (position, focus'.state)) :
    Checked.Agree (fun made made' => focus.lastIdentity ≤ made.1.lastIdentity ∧
        focus'.lastIdentity ≤ made'.1.lastIdentity ∧
          List.Forall₂ (Place.Alike made.1.lastIdentity made'.1.lastIdentity) made.2 made'.2)
      (journey.expand focus position) (journey.expand focus' position) := by
  rcases alike with ⟨alignment, last, last', same⟩
  have aligned : focus.Aligned alignment focus' := ⟨same.states, last.symm, last'.symm⟩
  refine (aligned.expand journey position).mono fun made made' further => ?_
  rcases further with ⟨after, further, made, places⟩
  rw [made.last, made.last', ← last, ← last']
  exact ⟨further.last, further.last', places.imp fun _ _ places => ⟨after, rfl, rfl, places⟩⟩

/-! ## Endings -/

/-- How a walk ends. -/
inductive Ending where
  | accepted
  | rejected (position : Nat) (reason : RejectionReason)

/-- Exploring the places in turn, each before those after it, ends that way after so many
iterations. -/
inductive Journey.Ends (journey : Journey) : Nat → List Place → Nat → Ending → Prop
  | accepted (last : Nat) : Ends journey last [] 0 .accepted
  | rejected {focus : Focus} {position : Nat} {cause : RejectionCause} (rest : List Place)
      (found : journey.expand focus position = .error cause) :
      Ends journey focus.lastIdentity ((position, focus.state) :: rest) 1
        (.rejected position cause.reason)
  | expanded {focus focus' : Focus} {position steps : Nat} {places rest : List Place}
      {ending : Ending} (made : journey.expand focus position = .ok (focus', places))
      (ends : Ends journey focus'.lastIdentity (places ++ rest) steps ending) :
      Ends journey focus.lastIdentity ((position, focus.state) :: rest) (steps + 1) ending

/-- Places alike end the same way. -/
theorem Journey.Ends.alike
    {last steps : Nat} {places : List Place} {ending : Ending}
    (ends : journey.Ends last places steps ending) :
    ∀ {last' : Nat} {places' : List Place}, List.Forall₂ (Place.Alike last last') places places' →
      journey.Ends last' places' steps ending := by
  induction ends with
  | accepted last =>
      intro last' places' alike
      cases alike
      exact .accepted last'
  | @rejected focus position cause rest found =>
      intro last' places' alike
      rcases alike with _ | ⟨here, rest'⟩
      rename_i place rest''
      rcases place with ⟨position', state'⟩
      obtain rfl : position = position' := here.position
      have agree := @expand_alike journey focus ⟨state', last', 0, 0⟩ position here
      rw [found] at agree
      generalize found' : journey.expand ⟨state', last', 0, 0⟩ position = outcome at agree
      cases agree with
      | failed same =>
          rw [same]
          exact .rejected rest'' found'
  | @expanded focus focus' position steps places rest ending made ends continues =>
      intro last' places' alike
      rcases alike with _ | ⟨here, rest'⟩
      rename_i place rest''
      rcases place with ⟨position', state'⟩
      obtain rfl : position = position' := here.position
      have agree := @expand_alike journey focus ⟨state', last', 0, 0⟩ position here
      rw [made] at agree
      generalize made' : journey.expand ⟨state', last', 0, 0⟩ position = outcome at agree
      cases agree with
      | passed same =>
          rcases same with ⟨more, more', same⟩
          refine .expanded made' (continues (List.rel_append same ?_))
          exact rest'.imp fun _ _ alike => alike.grow more more'

/-- Exploring the places ends that way after so many iterations, however many identities have been
handed out. -/
def Journey.EndsAfter (journey : Journey) (places : List Place) (steps : Nat) (ending : Ending) :
    Prop :=
  ∃ last, (∀ place ∈ places, Place.Within last place) ∧ journey.Ends last places steps ending

/-- The places are alike, however many identities have been handed out. -/
def Place.Twins (place place' : Place) : Prop :=
  ∃ last last', Place.Alike last last' place place'

/-- Twins are alike where both mention identities that have been handed out. -/
theorem Place.Twins.alike
    {place place' : Place} {last last' : Nat} (twins : Place.Twins place place')
    (within : Place.Within last place)
    (within' : Place.Within last' place') : Place.Alike last last' place place' := by
  rcases twins with ⟨_, _, alike⟩
  exact (within.trans alike).trans within'

theorem within_of_alike
    {last last' : Nat} {places places' : List Place}
    (alike : List.Forall₂ (Place.Alike last last') places places') :
    (∀ place ∈ places, Place.Within last place) ∧ ∀ place ∈ places', Place.Within last' place := by
  induction alike with
  | nil => exact ⟨fun _ listed => (by cases listed), fun _ listed => (by cases listed)⟩
  | cons here _ later =>
      exact ⟨List.forall_mem_cons.mpr ⟨here.within, later.1⟩,
        List.forall_mem_cons.mpr ⟨here.within', later.2⟩⟩

/-- There is a last one of the identities that places mention. -/
theorem exists_within
    {places places' : List Place} (twins : List.Forall₂ Place.Twins places places') :
    ∃ last', ∀ place' ∈ places', Place.Within last' place' := by
  induction twins with
  | nil => exact ⟨0, fun _ listed => by cases listed⟩
  | @cons place place' rest rest' here _ later =>
      rcases here with ⟨_, last, alike⟩
      rcases later with ⟨last', within⟩
      refine ⟨max last last', List.forall_mem_cons.mpr ⟨?_, fun place listed => ?_⟩⟩
      · exact alike.within'.grow (Nat.le_max_left _ _) (Nat.le_max_left _ _)
      · exact (within place listed).grow (Nat.le_max_right _ _) (Nat.le_max_right _ _)

namespace Journey.EndsAfter

variable {places places' rest : List Place} {steps : Nat} {ending : Ending}

/-- Walks from places that are twins end alike. -/
theorem twins
    (ends : journey.EndsAfter places steps ending)
    (twins : List.Forall₂ Place.Twins places places') : journey.EndsAfter places' steps ending := by
  rcases ends with ⟨last, within, ends⟩
  rcases exists_within twins with ⟨last', within'⟩
  refine ⟨last', within', ends.alike ?_⟩
  clear ends
  induction twins with
  | nil => exact .nil
  | cons here _ later =>
      rcases List.forall_mem_cons.mp within with ⟨first, within⟩
      rcases List.forall_mem_cons.mp within' with ⟨first', within'⟩
      exact .cons (here.alike first first') (later within within')

theorem nil (ends : journey.EndsAfter [] steps ending) : steps = 0 ∧ ending = .accepted := by
  rcases ends with ⟨last, _, ends⟩
  cases ends
  exact ⟨rfl, rfl⟩

/-- A place that is left to visit takes an iteration. -/
theorem pos {place : Place} (ends : journey.EndsAfter (place :: rest) steps ending) :
    0 < steps := by
  rcases ends with ⟨last, _, ends⟩
  generalize opens : place :: rest = places at ends
  cases ends with
  | accepted => cases opens
  | rejected => exact Nat.one_pos
  | expanded => exact Nat.succ_pos _

section

variable {focus focus' : Focus} {position : Nat} {place : Place}

/-- The program is turned away at the first place. -/
theorem of_error
    {cause : RejectionCause} (ends : journey.EndsAfter (place :: rest) steps ending)
    (twins : Place.Twins place (position, focus.state))
    (within : Place.Within focus.lastIdentity (position, focus.state))
    (found : journey.expand focus position = .error cause) :
    steps = 1 ∧ ending = .rejected position cause.reason := by
  rcases ends with ⟨last, within', ends⟩
  have alike := twins.alike (within' place List.mem_cons_self) within
  cases ends with
  | @rejected focus position' cause' rest found' =>
      obtain rfl : position' = position := alike.position
      have agree := @expand_alike journey _ _ _ alike
      rw [found', found] at agree
      cases agree with
      | failed same => exact ⟨rfl, by rw [same]⟩
  | @expanded focus focus' position' steps places rest ending made ends =>
      obtain rfl : position' = position := alike.position
      have agree := @expand_alike journey _ _ _ alike
      rw [made, found] at agree
      cases agree

/-- The first place leads to others, at which the exploration goes on. -/
theorem of_ok
    (ends : journey.EndsAfter (place :: rest) steps ending)
    (twins : Place.Twins place (position, focus.state))
    (within : Place.Within focus.lastIdentity (position, focus.state))
    (made : journey.expand focus position = .ok (focus', places)) :
    ∃ fewer, steps = fewer + 1 ∧ journey.EndsAfter (places ++ rest) fewer ending := by
  rcases ends with ⟨last, within', ends⟩
  rcases List.forall_mem_cons.mp within' with ⟨here, waiting⟩
  have alike := twins.alike here within
  cases ends with
  | @rejected focus position' cause rest found =>
      obtain rfl : position' = position := alike.position
      have agree := @expand_alike journey _ _ _ alike
      rw [found, made] at agree
      cases agree
  | @expanded focus focus' position' steps places' rest ending made' ends =>
      obtain rfl : position' = position := alike.position
      have agree := @expand_alike journey _ _ _ alike
      rw [made', made] at agree
      cases agree with
      | passed same =>
          rcases same with ⟨more, _, same⟩
          have within'' : ∀ place ∈ places' ++ rest, Place.Within focus'.lastIdentity place := by
            intro place listed
            rcases List.mem_append.mp listed with led | waits
            · exact (within_of_alike same).1 place led
            · exact (waiting place waits).grow more more
          have ends'' : journey.EndsAfter (places' ++ rest) steps ending :=
            ⟨focus'.lastIdentity, within'', ends⟩
          refine ⟨steps, rfl, ends''.twins (List.rel_append ?_ ?_)⟩
          · exact same.imp fun _ _ alike => ⟨_, _, alike⟩
          · exact List.forall₂_same.mpr fun place waits => ⟨_, _, waiting place waits⟩

end

end Journey.EndsAfter

end PacketFilter
