/-!
# Running actions that may fail

Operations on maps, on stores and on machines are all actions over a state
that may fail half-way and keep what they have changed.  This module says what
running such an action from a given state amounts to, one equation for each
way of building one.

The equations are a simplification set: with them a run of a `do` block
becomes a case distinction over the runs of its parts.
-/

namespace PacketFilter.Stateful

variable {Error State α β : Type}

@[simp]
theorem run_bind
    (action : ExceptT Error (StateM State) α) (next : α → ExceptT Error (StateM State) β)
    (state : State) :
    (action >>= next).run state =
      match action.run state with
      | (.ok result, state) => (next result).run state
      | (.error error, state) => (.error error, state) := by
  show (match (action.run state).1 with
    | .ok result => (next result).run
    | .error error => pure (.error error)) (action.run state).2 = _
  rcases action.run state with ⟨_ | _, _⟩ <;> rfl

@[simp]
theorem run_pure (result : α) (state : State) :
    (pure result : ExceptT Error (StateM State) α).run state = (.ok result, state) :=
  rfl

@[simp]
theorem run_throw (error : Error) (state : State) :
    (throw error : ExceptT Error (StateM State) α).run state = (.error error, state) :=
  rfl

@[simp]
theorem run_get (state : State) :
    (get : ExceptT Error (StateM State) State).run state = (.ok state, state) :=
  rfl

@[simp]
theorem run_set (state replacement : State) :
    (set replacement : ExceptT Error (StateM State) PUnit).run state = (.ok (), replacement) :=
  rfl

@[simp]
theorem run_modify (change : State → State) (state : State) :
    (modify change : ExceptT Error (StateM State) PUnit).run state = (.ok (), change state) :=
  rfl

/-- A computation that may fail, lifted into an action, leaves the state alone. -/
@[simp]
theorem run_mk_pure (result : Except Error α) (state : State) :
    (ExceptT.mk (pure result) : ExceptT Error (StateM State) α).run state = (result, state) :=
  rfl

@[simp]
theorem run_ite
    (condition : Prop) [Decidable condition]
    (first second : ExceptT Error (StateM State) α) (state : State) :
    (if condition then first else second).run state =
      if condition then first.run state else second.run state := by
  split <;> rfl

/-- A loop succeeds, and leads to where nothing is left to do, if every step of it succeeds and
leads to where one thing less is. -/
theorem run_forM
    {step : α → ExceptT Error (StateM State) PUnit} {left : List α → State → Prop}
    (steps : ∀ first rest state, left (first :: rest) state →
      ∃ after, (step first).run state = (.ok (), after) ∧ left rest after) :
    ∀ (list : List α) {state : State}, left list state →
      ∃ after, (list.forM step).run state = (.ok (), after) ∧ left [] after := by
  intro list
  induction list with
  | nil => exact fun held => ⟨_, rfl, held⟩
  | cons first rest continues =>
      intro state held
      rcases steps first rest state held with ⟨between, run, held'⟩
      rcases continues held' with ⟨after, run', held''⟩
      refine ⟨after, ?_, held''⟩
      show (step first >>= fun _ => rest.forM step).run state = _
      rw [run_bind, run]
      exact run'

end PacketFilter.Stateful
