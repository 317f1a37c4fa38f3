import PacketFilter.Verifier.Focus

/-!
# Checks that were passed

A check that comes out well tells that every demand on the way was met.  The
equations here take such an outcome apart, one step of the check at a time.
-/

namespace PacketFilter

variable {α β : Type}

theorem Checked.bind_eq_ok
    {Error : Type} {first : Except Error α} {next : α → Except Error β} {result : β} :
    (first >>= next) = .ok result ↔ ∃ value, first = .ok value ∧ next value = .ok result := by
  cases first with
  | error error =>
      constructor
      · intro absurdity
        cases absurdity
      · rintro ⟨_, absurdity, _⟩
        cases absurdity
  | ok value =>
      constructor
      · intro done
        exact ⟨value, rfl, done⟩
      · rintro ⟨_, same, done⟩
        cases same
        exact done

theorem Checked.pure_eq_ok
    {Error : Type} {value result : α} :
    (pure value : Except Error α) = .ok result ↔ value = result := by
  rw [show (pure value : Except Error α) = .ok value from rfl, Except.ok.injEq]

/-- Every result of a traversal is that of some item. -/
theorem Checked.exists_item_of_mapM
    {Error : Type} {f : α → Except Error β} {items : List α} {results : List β} {result : β}
    (made : items.mapM f = .ok results) (listed : result ∈ results) :
    ∃ item ∈ items, f item = .ok result := by
  induction items generalizing results with
  | nil =>
      cases made
      cases listed
  | cons item rest continues =>
      rw [List.mapM_cons] at made
      rcases Checked.bind_eq_ok.mp made with ⟨first, here, made⟩
      rcases Checked.bind_eq_ok.mp made with ⟨later, there, made⟩
      cases made
      rcases List.mem_cons.mp listed with rfl | among
      · exact ⟨item, List.mem_cons_self, here⟩
      · rcases continues there among with ⟨source, listed, same⟩
        exact ⟨source, List.mem_cons_of_mem _ listed, same⟩

theorem demand_eq_ok
    {condition : Prop} [Decidable condition] {cause : RejectionCause} {done : Unit} :
    demand condition cause = .ok done ↔ condition := by
  unfold demand
  split
  · rename_i met
    exact iff_of_true rfl met
  · rename_i missed
    exact iff_of_false (fun absurdity => by cases absurdity) missed

/-- A demand that was met, and what was done after it. -/
theorem demand_bind_eq_ok
    {condition : Prop} [Decidable condition] {cause : RejectionCause} {next : Unit → Checked α}
    {result : α} :
    (demand condition cause >>= next) = .ok result ↔ condition ∧ next () = .ok result := by
  rw [Checked.bind_eq_ok]
  constructor
  · rintro ⟨_, met, done⟩
    exact ⟨demand_eq_ok.mp met, done⟩
  · rintro ⟨met, done⟩
    exact ⟨(), demand_eq_ok.mpr met, done⟩

theorem liftStack_eq_ok
    {offset : Int} {size : Nat} {result : Except StackError α} {value : α} :
    liftStack offset size result = .ok value ↔ result = .ok value := by
  cases result with
  | error error =>
      exact iff_of_false (fun absurdity => by cases absurdity)
        (fun absurdity => by cases absurdity)
  | ok found =>
      have lifted : liftStack offset size (.ok found) = .ok found := rfl
      rw [lifted, Except.ok.injEq, Except.ok.injEq]

/-- A register that could be read holds a value. -/
theorem Focus.read_eq_ok
    {focus : Focus} {name : RegisterName} {value : AbstractValue} :
    focus.read name = .ok value ↔
      value = focus.state.register name ∧ value.kind ≠ .uninitialized := by
  rw [Focus.read, demand_bind_eq_ok]
  simp only [AbstractValue.isInitialized, bne_iff_ne]
  constructor
  · rintro ⟨initialized, done⟩
    cases done
    exact ⟨rfl, initialized⟩
  · rintro ⟨rfl, initialized⟩
    exact ⟨initialized, rfl⟩

theorem Setting.schemaOf_eq_ok
    {setting : Setting} {mapIndex : Nat} {schema : Schema} :
    setting.schemaOf mapIndex = .ok schema ↔ setting.schema? mapIndex = some schema := by
  rw [Setting.schemaOf]
  cases setting.schema? mapIndex with
  | none =>
      exact iff_of_false (fun absurdity => by cases absurdity)
        (fun absurdity => by cases absurdity)
  | some found => simp only [Except.ok.injEq, Option.some.injEq]

end PacketFilter
