import PacketFilter.Proofs.Expansion
import PacketFilter.Proofs.Identities

/-!
# What a finished walk has seen

The trail of a walk lists it at the start of every iteration.  When the walk
finishes, every place that was put aside has been taken up, so all edges out of
a place that was visited lead to places on the trail.  A path that was pruned
ended at a place where a state like its own had been visited.
-/

namespace PacketFilter

/-- Known at a place that a course leads to is what is known after the instruction, or what is
known on one of the edges. -/
theorem Course.of_mem_leads
    {course : Course} {state : AbstractState} {instruction : Instruction} {position length : Nat}
    {place : Place}
    (listed : place ∈ course.leads state instruction position length) :
    place.2 = state ∨ place.2 ∈ course.edges.taken? ∨ place.2 ∈ course.edges.fall? := by
  unfold leads at listed
  split at listed
  · exact .inl (congrArg Prod.snd (List.mem_singleton.mp listed))
  · cases listed
  · exact .inl (congrArg Prod.snd (List.mem_singleton.mp listed))
  case h_4 taken? fall? target _ =>
    rcases List.mem_append.mp listed with taken | fall
    · rcases Option.map_eq_some_iff.mp (Option.mem_toList.mp taken) with ⟨state, known, rfl⟩
      exact .inr (.inl known)
    · rcases Option.map_eq_some_iff.mp (Option.mem_toList.mp fall) with ⟨state, known, rfl⟩
      exact .inr (.inr known)
  · cases listed
  · cases listed

namespace Walk

/-- The walk at the start of every iteration. -/
def trail (journey : Journey) : Nat → Walk → List Walk
  | 0, _ => []
  | budget + 1, walk =>
    walk :: match walk.step journey with
      | .continue next => trail journey budget next
      | _ => []

/-- What holds of the first walk, and is kept by every iteration that goes on, holds all along the
trail. -/
theorem trail_invariant
    {journey : Journey} {invariant : Nat → Walk → Prop}
    (keeps : ∀ {count : Nat} {walk next : Walk}, invariant count walk →
      walk.step journey = .continue next → invariant (count + 1) next) (budget : Nat) :
    ∀ {walk later : Walk} {count index : Nat}, invariant count walk →
      (walk.trail journey budget)[index]? = some later → invariant (count + index) later := by
  induction budget with
  | zero =>
      intro walk later count index _ there
      cases there
  | succ budget continues =>
      intro walk later count index holds there
      rw [trail] at there
      cases index with
      | zero =>
          cases there
          exact holds
      | succ index =>
          rw [List.getElem?_cons_succ] at there
          split at there
          case h_1 next steps =>
            have later := continues (keeps holds steps) there
            rwa [Nat.add_right_comm] at later
          case h_2 => cases there

/-- The instruction is let through and leads to the places listed. -/
def Visits (journey : Journey) (walk : Walk) (focus : Focus) (places : List Place) : Prop :=
  ∃ instruction operation course,
    journey.code[walk.position]? = some instruction ∧
      journey.code.operation? walk.position = some operation ∧
        transfer journey.setting walk.focus operation = .ok (focus, course) ∧
          course.Lands (instruction.jumpTarget? walk.position journey.code.size) ∧
            places = course.leads focus.state instruction walk.position journey.code.size

/-- What an iteration does at a place: it ends the path, or visits the place. -/
inductive Handles (journey : Journey) (walk : Walk) : Focus → List Place → Prop
  | pruned (here : walk.isPruned journey = true) : Handles journey walk walk.focus []
  | visited {focus : Focus} {places : List Place} (here : walk.isPruned journey = false)
      (visits : walk.Visits journey focus places) : Handles journey walk focus places

/-- Where an iteration leads from a walk which has the places given before it. -/
inductive Goes (walk : Walk) (places : List Place) : Progress → Prop
  | rejected (log : Log) (rejection : Rejection) : Goes walk places (.rejected log rejection)
  | finished (final : Walk) (none : places ++ walk.aside = []) : Goes walk places (.finished final)
  | continue (next : Walk) (opens : next.place :: next.aside = places ++ walk.aside)
      (last : next.focus.lastIdentity = walk.focus.lastIdentity)
      (explored : next.explored = walk.explored) : Goes walk places (.continue next)

variable {journey : Journey} {walk : Walk}

theorem lands_of_checkCourse
    {instruction : Instruction} {position : Nat} {state : AbstractState} {course : Course}
    (checked : journey.checkCourse instruction position state course = .ok ()) :
    course.Lands (instruction.jumpTarget? position journey.code.size) := by
  unfold Journey.checkCourse at checked
  cases course with
  | next => exact trivial
  | exit => exact trivial
  | jump =>
      cases target : instruction.jumpTarget? position journey.code.size with
      | none =>
          rw [target] at checked
          cases checked
      | some _ => rfl
  | branch taken? fall? =>
      cases target : instruction.jumpTarget? position journey.code.size with
      | none =>
          rw [target] at checked
          cases checked
      | some _ => rfl

/-- The places that a place leads to are visited from it. -/
theorem visits_of_expand
    {focus : Focus} {places : List Place}
    (expands : journey.expand walk.focus walk.position = .ok (focus, places)) :
    walk.Visits journey focus places := by
  unfold Journey.expand at expands
  cases fetched : journey.code[walk.position]? with
  | none =>
      rw [fetched] at expands
      cases expands
  | some instruction =>
      cases decoded : journey.code.operation? walk.position with
      | none =>
          rw [fetched, decoded] at expands
          cases expands
      | some operation =>
          rw [fetched, decoded] at expands
          rcases Checked.bind_eq_ok.mp expands with ⟨⟨focus', course⟩, passed, expands⟩
          rcases Checked.bind_eq_ok.mp expands with ⟨_, checked, made⟩
          cases made
          exact ⟨instruction, operation, course, fetched, decoded, passed,
            lands_of_checkCourse checked, rfl⟩

theorem Meets.goes
    {focus : Focus} {places : List Place} {position : Nat}
    {explored : Array (List AbstractState)} {progress : Progress}
    (meets : Meets position explored (.ok (focus.lastIdentity, places ++ walk.aside)) progress) :
    { walk with focus, explored }.Goes places progress := by
  generalize listed : places ++ walk.aside = waiting at meets
  cases meets with
  | finished last final => exact .finished final listed
  | «continue» next opens handed same => exact .continue next (opens.trans listed.symm) handed same

/-- The states kept are those kept before and, unless the path ends here, the current one. -/
def Keeps (journey : Journey) (walk : Walk) (explored : Array (List AbstractState)) : Prop :=
  ∀ (position : Nat) (state : AbstractState), state ∈ explored[position]?.getD [] →
    state ∈ walk.seenAt position ∨
      walk.isPruned journey = false ∧ (position, state) = walk.place

/-- An iteration turns the program away, or does what is to be done at the place. -/
theorem step_goes (journey : Journey) (walk : Walk) :
    (∃ log rejection, walk.step journey = .rejected log rejection) ∨
      ∃ focus places explored, walk.Handles journey focus places ∧
        walk.Keeps journey explored ∧
          { walk with focus, explored }.Goes places (walk.step journey) := by
  rcases step_meets journey walk with ⟨pruned, meets⟩ | ⟨visited, meets⟩
  · exact .inr ⟨walk.focus, [], walk.explored, .pruned pruned, fun _ _ kept => .inl kept,
      Meets.goes meets⟩
  · have keeps : walk.Keeps journey (walk.exploredAfter journey) := fun _ _ kept =>
      (mem_exploredAfter kept).imp_right fun current => ⟨visited, current⟩
    rcases expanded : journey.expand walk.focus walk.position with cause | ⟨focus, places⟩
    · rw [expanded] at meets
      generalize walk.step journey = progress at meets ⊢
      cases meets with
      | rejected cause log => exact .inl ⟨log, _, rfl⟩
    · rw [expanded] at meets
      exact .inr ⟨focus, places, _, .visited visited (visits_of_expand expanded), keeps,
        Meets.goes meets⟩

/-! ## Identities -/

/-- What is known here and at the places put aside mentions only identities handed out. -/
def Within (walk : Walk) : Prop :=
  ∀ place ∈ walk.place :: walk.aside, place.2.Within walk.focus.lastIdentity

theorem Visits.grows
    {focus : Focus} {places : List Place}
    (visits : walk.Visits journey focus places)
    (within : walk.focus.state.Within walk.focus.lastIdentity) :
    walk.focus.lastIdentity ≤ focus.lastIdentity ∧
      ∀ place ∈ places, place.2.Within focus.lastIdentity := by
  rcases visits with ⟨instruction, operation, course, _, _, passed, _, rfl⟩
  rcases transfer_grows within passed with ⟨grows, edges⟩
  refine ⟨grows.last, fun place listed => ?_⟩
  rcases Course.of_mem_leads listed with same | taken | fall
  · exact same ▸ grows.within
  · exact edges.taken place.2 taken
  · exact edges.fall place.2 fall

theorem Handles.grows
    {focus : Focus} {places : List Place}
    (handles : walk.Handles journey focus places) (within : walk.Within) :
    walk.focus.lastIdentity ≤ focus.lastIdentity ∧
      ∀ place ∈ places, place.2.Within focus.lastIdentity := by
  cases handles with
  | pruned here => exact ⟨Nat.le_refl _, fun _ listed => by cases listed⟩
  | visited here visits => exact visits.grows (within walk.place List.mem_cons_self)

end Walk

/-! ## Finished walks -/

/-- The path that ends here goes on like one from a place that was visited before. -/
structure Walk.Resumes (journey : Journey) (walk seen : Walk) : Prop where
  pruned : walk.isPruned journey = true
  visited : seen.isPruned journey = false
  here : seen.position = walk.position
  kept : seen.focus.state ∈ walk.seenAt walk.position
  alike : walk.focus.state.isAlike seen.focus.state = true

/-- The states kept are from places that were visited. -/
def Walk.Remembers (journey : Journey) (before : List Walk) (walk : Walk) : Prop :=
  ∀ (position : Nat) (state : AbstractState), state ∈ walk.seenAt position →
    ∃ seen ∈ before, seen.isPruned journey = false ∧ seen.place = (position, state)

/-- The trail leads to the places. -/
def Walk.Reaches (trail : List Walk) (places : List Place) : Prop :=
  ∀ place ∈ places, ∃ walk ∈ trail, walk.place = place

/-- Nothing on the trail has been left undone; paths may end at what came before. -/
structure Journey.Explores (journey : Journey) (before trail : List Walk) : Prop where
  within : ∀ walk ∈ trail, walk.focus.state.Within walk.focus.lastIdentity
  visited : ∀ walk ∈ trail, walk.isPruned journey = false →
    ∃ focus places, walk.Visits journey focus places ∧ Walk.Reaches trail places
  pruned : ∀ walk ∈ trail, walk.isPruned journey = true →
    ∃ seen ∈ before ++ trail, walk.Resumes journey seen

namespace Walk

variable {journey : Journey} {walk : Walk}

theorem Reaches.cons
    {trail : List Walk} {places : List Place}
    (reaches : Reaches trail places) (walk : Walk) :
    Reaches (walk :: trail) places := by
  intro place listed
  rcases reaches place listed with ⟨next, there, same⟩
  exact ⟨next, List.mem_cons_of_mem walk there, same⟩

theorem Remembers.resumes
    {before : List Walk}
    (remembers : walk.Remembers journey before) (here : walk.isPruned journey = true) :
    ∃ seen ∈ before, walk.Resumes journey seen := by
  have seen := here
  rw [isPruned, Bool.and_eq_true] at seen
  rcases List.any_eq_true.mp seen.2 with ⟨state, kept, alike⟩
  rcases remembers walk.position state kept with ⟨stored, there, visited, place⟩
  rcases Prod.mk.inj place with ⟨position, rfl⟩
  exact ⟨stored, there, here, visited, position, kept, alike⟩

/-- What the rest of the trail leaves undone is what the first walk puts aside. -/
theorem Handles.explores
    {before trail : List Walk} {focus : Focus} {places : List Place}
    (handles : walk.Handles journey focus places) (within : walk.Within)
    (remembers : walk.Remembers journey before)
    (explores : journey.Explores (walk :: before) trail)
    (reaches : Reaches trail (places ++ walk.aside)) :
    journey.Explores before (walk :: trail) ∧
      Reaches (walk :: trail) (walk.place :: walk.aside) := by
  refine ⟨⟨?_, ?_, ?_⟩, ?_⟩
  · rintro other (_ | ⟨_, there⟩)
    · exact within walk.place List.mem_cons_self
    · exact explores.within other there
  · rintro other (_ | ⟨_, there⟩) here
    · cases handles with
      | pruned pruned => exact Bool.noConfusion (here.symm.trans pruned)
      | visited _ visits =>
          exact ⟨focus, places, visits, Reaches.cons (fun place listed =>
            reaches place (List.mem_append_left _ listed)) walk⟩
    · rcases explores.visited other there here with ⟨focus', places', visits, reaches'⟩
      exact ⟨focus', places', visits, reaches'.cons walk⟩
  · rintro other (_ | ⟨_, there⟩) here
    · rcases remembers.resumes here with ⟨seen, known, resumes⟩
      exact ⟨seen, List.mem_append_left _ known, resumes⟩
    · rcases explores.pruned other there here with ⟨seen, known, resumes⟩
      refine ⟨seen, ?_, resumes⟩
      exact List.perm_middle.mem_iff.mpr known
  · rintro place (_ | ⟨_, listed⟩)
    · exact ⟨walk, List.mem_cons_self, rfl⟩
    · exact Reaches.cons (fun place listed => reaches place (List.mem_append_right _ listed)) walk
        place listed

theorem Keeps.remembers
    {before : List Walk} {explored : Array (List AbstractState)} {next : Walk}
    (keeps : walk.Keeps journey explored) (same : next.explored = explored)
    (remembers : walk.Remembers journey before) :
    next.Remembers journey (walk :: before) := by
  intro position state kept
  rw [seenAt, same] at kept
  rcases keeps position state kept with earlier | ⟨here, current⟩
  · rcases remembers position state earlier with ⟨seen, there, known⟩
    exact ⟨seen, List.mem_cons_of_mem walk there, known⟩
  · exact ⟨walk, List.mem_cons_self, here, current.symm⟩

/-- A walk that finishes takes up everything that was put aside. -/
theorem run_explores (journey : Journey) (budget : Nat) :
    ∀ {walk final : Walk} {before : List Walk}, walk.run journey budget = .finished final →
      walk.Within → walk.Remembers journey before →
        journey.Explores before (walk.trail journey budget) ∧
          Reaches (walk.trail journey budget) (walk.place :: walk.aside) := by
  induction budget with
  | zero =>
      intro walk final before finished
      cases finished
  | succ budget continues =>
      intro walk final before finished within remembers
      rw [run] at finished
      rw [trail]
      rcases step_goes journey walk with
        ⟨log, rejection, rejected⟩ | ⟨focus, places, explored, handles, keeps, goes⟩
      · rw [rejected] at finished
        cases finished
      · rcases handles.grows within with ⟨last, places'⟩
        generalize walk.step journey = progress at finished goes
        cases goes with
        | rejected log rejection => cases finished
        | finished final none =>
            have nothing : Reaches [] (places ++ walk.aside) := by
              rw [show places ++ walk.aside = [] from none]
              exact fun _ listed => by cases listed
            refine handles.explores within remembers ⟨?_, ?_, ?_⟩ nothing
            · exact fun _ listed => by cases listed
            · exact fun _ listed => by cases listed
            · exact fun _ listed => by cases listed
        | «continue» next opens last' explored' =>
            have opens : next.place :: next.aside = places ++ walk.aside := opens
            have within' : next.Within := by
              intro place listed
              rw [last']
              rw [opens] at listed
              rcases List.mem_append.mp listed with led | waiting
              · exact places' place led
              · exact (within place (List.mem_cons_of_mem _ waiting)).mono last
            rcases continues finished within' (keeps.remembers explored' remembers) with
              ⟨explores, reaches⟩
            exact handles.explores within remembers explores (opens ▸ reaches)

end Walk

end PacketFilter
