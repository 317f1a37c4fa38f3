/-!
# Series of calls

Something with a state is asked one thing after the other and answers each.
Two such things that answer every single call alike, and stay related by it,
answer every series of calls alike.
-/

namespace PacketFilter

variable {Call Answer State State' : Type}

/-- All answers to a series of calls, and the state that it leads to. -/
def answerAll (handle : Call → State → Answer × State) : List Call → State → List Answer × State
  | [], state => ([], state)
  | call :: calls, state =>
    let (answer, state) := handle call state
    let (answers, state) := answerAll handle calls state
    (answer :: answers, state)

@[simp]
theorem answerAll_nil (handle : Call → State → Answer × State) (state : State) :
    answerAll handle [] state = ([], state) :=
  rfl

@[simp]
theorem answerAll_cons
    (handle : Call → State → Answer × State) (call : Call) (calls : List Call) (state : State) :
    answerAll handle (call :: calls) state =
      ((handle call state).1 :: (answerAll handle calls (handle call state).2).1,
        (answerAll handle calls (handle call state).2).2) :=
  rfl

theorem answerAll_append
    (handle : Call → State → Answer × State) (calls later : List Call) :
    ∀ state : State, answerAll handle (calls ++ later) state =
      ((answerAll handle calls state).1 ++
          (answerAll handle later (answerAll handle calls state).2).1,
        (answerAll handle later (answerAll handle calls state).2).2) := by
  induction calls with
  | nil => exact fun _ => rfl
  | cons call calls continues =>
      intro state
      rw [List.cons_append, answerAll_cons, continues, answerAll_cons]
      rfl

/-- What every call keeps is kept by a series of them. -/
theorem answerAll_keeps
    {handle : Call → State → Answer × State} {kept : State → Prop}
    (keeps : ∀ call state, kept state → kept (handle call state).2) (calls : List Call) :
    ∀ {state : State}, kept state → kept (answerAll handle calls state).2 := by
  induction calls with
  | nil => exact fun held => held
  | cons call calls continues => exact fun held => continues (keeps call _ held)

/-- Related states give the same answers to the calls of a series if they do so call by call. -/
theorem answerAll_simulates_of_mem
    {handle : Call → State → Answer × State} {handle' : Call → State' → Answer × State'}
    {related : State → State' → Prop} (calls : List Call)
    (alike : ∀ call ∈ calls, ∀ state state', related state state' →
      (handle call state).1 = (handle' call state').1 ∧
        related (handle call state).2 (handle' call state').2) :
    ∀ {state : State} {state' : State'}, related state state' →
      (answerAll handle calls state).1 = (answerAll handle' calls state').1 ∧
        related (answerAll handle calls state).2 (answerAll handle' calls state').2 := by
  induction calls with
  | nil => exact fun held => ⟨rfl, held⟩
  | cons call calls continues =>
      intro state state' held
      rcases List.forall_mem_cons.mp alike with ⟨first, others⟩
      rcases first state state' held with ⟨same, held'⟩
      rcases continues others held' with ⟨later, held''⟩
      rw [answerAll_cons, answerAll_cons, same, later]
      exact ⟨rfl, held''⟩

/-- Related states give the same answers. -/
theorem answerAll_simulates
    {handle : Call → State → Answer × State} {handle' : Call → State' → Answer × State'}
    {related : State → State' → Prop}
    (alike : ∀ call state state', related state state' →
      (handle call state).1 = (handle' call state').1 ∧
        related (handle call state).2 (handle' call state').2)
    (calls : List Call) :
    ∀ {state : State} {state' : State'}, related state state' →
      (answerAll handle calls state).1 = (answerAll handle' calls state').1 ∧
        related (answerAll handle calls state).2 (answerAll handle' calls state').2 :=
  answerAll_simulates_of_mem calls fun call _ => alike call

end PacketFilter
