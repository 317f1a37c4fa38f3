import PacketFilter.Proofs.Renaming

/-!
# When states are alike

A renaming that is built up while states are compared never has a choice: what
it takes an identity to is what stands in the same place of the other state.
So where any one-to-one relation of identities turns the one state into the
other, the renaming that is found is part of it, and the comparison succeeds.

Together with what a comparison that succeeds has found, states are alike
exactly when there is such a relation.
-/

namespace PacketFilter

/-- Frames that correspond do so slot by slot. -/
theorem StackFrame.Corresponds.slots
    {relates : Nat → Nat → Prop} {frame frame' : StackFrame}
    (corresponds : frame.Corresponds relates frame') {index : Nat} (inside : index < 64) :
    frame.slots[index].Corresponds relates frame'.slots[index] := by
  have same := corresponds (8 * index)
  rw [slotOf, slotOf, Nat.mul_div_cancel_left index (by decide),
    Vector.getElem?_eq_getElem inside, Vector.getElem?_eq_getElem inside] at same
  exact same

namespace Renaming

variable {relates : Nat → Nat → Prop} {matching : Renaming}

/-- All that has been matched is related. -/
def Among (matching : Renaming) (relates : Nat → Nat → Prop) : Prop :=
  ∀ pair ∈ matching.pairs, relates pair.1 pair.2

/-- A comparison that has matched nothing but what is related succeeds, and matches nothing else. -/
def Completes {α : Type} (relates : Nat → Nat → Prop)
    (matchOne? : Renaming → α → α → Option Renaming) (current stored : α) : Prop :=
  ∀ matching : Renaming, matching.Among relates →
    ∃ after, matchOne? matching current stored = some after ∧ after.Among relates

theorem empty_among (relates : Nat → Nat → Prop) : empty.Among relates := by
  rintro _ ⟨⟩

/-- Identities that go together can be matched, beside any others that do. -/
theorem match_complete
    (zero : relates 0 0) (oneToOne : Relator.BiUnique relates) {current stored : Nat}
    (related : relates current stored) :
    Completes relates match? current stored := by
  intro matching among
  have unnamed : current = 0 ↔ stored = 0 := Relator.rel_eq oneToOne related zero
  unfold match?
  split
  case isTrue either =>
    have both : current = 0 ∧ stored = 0 := by omega
    exact ⟨matching, if_pos (both.1.trans both.2.symm), among⟩
  case isFalse =>
    cases image : matching.image? current with
    | some found =>
        have held := mem_of_image image
        obtain rfl : found = stored := oneToOne.2 (among _ held) related
        cases preimage : matching.preimage? found with
        | some source =>
            obtain rfl : source = current := oneToOne.1 (among _ (mem_of_preimage preimage)) related
            exact ⟨matching, if_pos ⟨rfl, rfl⟩, among⟩
        | none => exact absurd rfl (ne_of_preimage preimage held)
    | none =>
        cases preimage : matching.preimage? stored with
        | some source =>
            have held := mem_of_preimage preimage
            obtain rfl : source = current := oneToOne.1 (among _ held) related
            exact absurd rfl (ne_of_image image held)
        | none => exact ⟨_, rfl, List.forall_mem_cons.mpr ⟨related, among⟩⟩

theorem matchValues_complete
    (zero : relates 0 0) (oneToOne : Relator.BiUnique relates) {current stored : AbstractValue}
    (values : current.Corresponds relates stored) :
    Completes relates matchValues? current stored := by
  intro matching among
  obtain ⟨between, identities, among'⟩ :=
    match_complete zero oneToOne values.identity matching among
  obtain ⟨after, references, among''⟩ :=
    match_complete zero oneToOne values.reference between among'
  refine ⟨after, ?_, among''⟩
  rw [matchValues?, if_pos ⟨values.kind, values.mayBeNull, values.readOnly, values.offset,
    values.bounds, values.mapIndex, values.range, values.size⟩, identities, Option.bind_some,
    references]

theorem matchSlots_complete
    (zero : relates 0 0) (oneToOne : Relator.BiUnique relates) {current stored : StackSlot}
    (slots : current.Corresponds relates stored) :
    Completes relates matchSlots? current stored := by
  obtain ⟨bytes, spill?⟩ := current
  obtain ⟨bytes', spill?'⟩ := stored
  obtain ⟨rfl, spills⟩ := slots
  intro matching among
  rw [matchSlots?, if_neg (not_not.mpr rfl)]
  cases spills with
  | none => exact ⟨matching, rfl, among⟩
  | some values => exact matchValues_complete zero oneToOne values matching among

/-- Lists whose items can be matched one by one can be matched as a whole. -/
theorem matchAll_complete
    {α : Type} {matchOne? : Renaming → α → α → Option Renaming} {currents storeds : List α}
    (all : List.Forall₂ (Completes relates matchOne?) currents storeds) :
    Completes relates (matchAll? matchOne?) currents storeds := by
  induction all with
  | nil => exact fun matching among => ⟨matching, rfl, among⟩
  | cons first _ rest =>
      intro matching among
      obtain ⟨between, matched, among'⟩ := first matching among
      obtain ⟨after, others, among''⟩ := rest between among'
      exact ⟨after, by rw [matchAll?, matched, Option.bind_some, others], among''⟩

/-- Corresponding states are matched by some renaming. -/
theorem ofStates_complete
    (zero : relates 0 0) (oneToOne : Relator.BiUnique relates) {current stored : AbstractState}
    (states : current.Corresponds relates stored) :
    ∃ matching, ofStates? current stored = some matching ∧ matching.Among relates := by
  have registers : List.Forall₂ (Completes relates matchValues?) current.registers.toList
      stored.registers.toList := by
    refine List.forall₂_iff_get.mpr ⟨by simp, fun index inside inside' => ?_⟩
    simp only [List.get_eq_getElem, Vector.getElem_toList]
    exact matchValues_complete zero oneToOne (states.registers ⟨index, by simpa using inside⟩)
  have slots : List.Forall₂ (Completes relates matchSlots?) current.stack.slots.toList
      stored.stack.slots.toList := by
    refine List.forall₂_iff_get.mpr ⟨by simp, fun index inside inside' => ?_⟩
    have small : index < 64 := by simpa using inside
    simp only [List.get_eq_getElem, Vector.getElem_toList]
    exact matchSlots_complete zero oneToOne (states.stack.slots small)
  have references : List.Forall₂ (Completes relates match?) current.references
      stored.references :=
    states.references.imp fun _ _ related => match_complete zero oneToOne related
  obtain ⟨first, matched, among⟩ := matchAll_complete registers empty (empty_among relates)
  obtain ⟨second, matched', among'⟩ := matchAll_complete slots first among
  obtain ⟨third, matched'', among''⟩ := matchAll_complete references second among'
  refine ⟨third, ?_, among''⟩
  simp only [ofStates?, matched, matched', matched'', Option.bind_eq_bind, Option.bind_some]

end Renaming

namespace AbstractState

variable {state state' : AbstractState} {relates : Nat → Nat → Prop}

theorem Corresponds.isAlike
    (states : state.Corresponds relates state') (zero : relates 0 0)
    (oneToOne : Relator.BiUnique relates) :
    state.isAlike state' = true := by
  obtain ⟨matching, matched, _⟩ := Renaming.ofStates_complete zero oneToOne states
  rw [AbstractState.isAlike, matched, Option.isSome_some]

/-- The comparison finds states alike just when some one-to-one relation of identities makes them
correspond. -/
theorem isAlike_iff :
    state.isAlike state' = true ↔
      ∃ relates : Nat → Nat → Prop, relates 0 0 ∧ Relator.BiUnique relates ∧
        state.Corresponds relates state' := by
  constructor
  · intro alike
    obtain ⟨matching, matched⟩ := Option.isSome_iff_exists.mp alike
    obtain ⟨oneToOne, states⟩ := Renaming.ofStates_sound matched
    exact ⟨matching.Relates, .inl ⟨rfl, rfl⟩, Renaming.relates_biUnique oneToOne, states⟩
  · rintro ⟨relates, zero, oneToOne, states⟩
    exact states.isAlike zero oneToOne

end AbstractState

end PacketFilter
