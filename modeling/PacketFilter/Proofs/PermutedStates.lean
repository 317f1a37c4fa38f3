import Mathlib.Algebra.Group.End
import Mathlib.Data.Fintype.Sum
import Mathlib.Tactic.TFAE
import PacketFilter.Proofs.AlikeStates

/-!
# States up to a permutation of identities

To rename a state is to put other identities in the place of those it
mentions, wherever they stand.  States are alike exactly when one of them is
the other renamed by a permutation that leaves zero in its place.

A comparison that succeeds relates finitely many identities one to one, and
such a relation is part of a permutation.  The permutation needs to move no
identity but those that the two states mention, so it stays within any width
in which these are written.
-/

namespace PacketFilter

variable {relates : Nat → Nat → Prop} {image : Nat → Nat}

/-! ## Permutations -/

/-- A one-to-one relation between finitely many identities is part of a permutation of these. -/
theorem exists_perm_of_biUnique
    (oneToOne : Relator.BiUnique relates) (identities : Finset Nat) :
    ∃ permutation : Equiv.Perm Nat,
      (∀ identity, permutation identity = identity ∨ identity ∈ identities) ∧
        ∀ identity ∈ identities, ∀ identity' ∈ identities,
          relates identity identity' → permutation identity = identity' := by
  classical
  have chosen (identity : identities) : ∃ counterpart : Nat,
      (∃ identity' ∈ identities, relates identity identity') →
        counterpart ∈ identities ∧ relates identity counterpart := by
    by_cases among : ∃ identity' ∈ identities, relates identity identity'
    · obtain ⟨counterpart, listed, holds⟩ := among
      exact ⟨counterpart, fun _ => ⟨listed, holds⟩⟩
    · exact ⟨0, fun here => absurd here among⟩
  choose counterpart counterparts using chosen
  have inside : Set.MapsTo counterpart
      {identity | ∃ identity' ∈ identities, relates identity identity'} identities :=
    fun identity among => (counterparts identity among).1
  have injective : Set.InjOn counterpart
      {identity | ∃ identity' ∈ identities, relates identity identity'} := by
    intro identity among other among' same
    have holds := (counterparts other among').2
    rw [← same] at holds
    exact Subtype.ext (oneToOne.1 (counterparts identity among).2 holds)
  obtain ⟨exchange, exchanges⟩ :=
    inside.exists_equiv_extend_of_card_eq (Fintype.card_coe identities) injective
  refine ⟨Equiv.Perm.ofSubtype exchange, fun identity => ?_, ?_⟩
  · by_cases listed : identity ∈ identities
    · exact .inr listed
    · exact .inl (Equiv.Perm.ofSubtype_apply_of_not_mem exchange listed)
  · intro identity listed identity' listed' holds
    have among : ∃ identity' ∈ identities, relates identity identity' :=
      ⟨identity', listed', holds⟩
    rw [Equiv.Perm.ofSubtype_apply_of_mem exchange listed, exchanges ⟨identity, listed⟩ among]
    exact oneToOne.2 (counterparts _ among).2 holds

/-! ## Renamed values -/

namespace AbstractValue

variable {value value' : AbstractValue}

/-- Both identities of a value. -/
def identities (value : AbstractValue) : List Nat :=
  [value.identity, value.reference]

/-- Put what they are renamed to in the place of both identities. -/
def rename (image : Nat → Nat) (value : AbstractValue) : AbstractValue :=
  { value with
    identity := image value.identity
    reference := image value.reference }

theorem corresponds_rename (image : Nat → Nat) (value : AbstractValue) :
    value.Corresponds (fun identity identity' => image identity = identity') (value.rename image) :=
  ⟨rfl, rfl, rfl, rfl, rfl, rfl, rfl, rfl, rfl, rfl⟩

/-- A value is renamed into the one it corresponds to, if the renaming takes its identities
there. -/
theorem Corresponds.rename_eq
    (values : value.Corresponds relates value')
    (takes : ∀ identity ∈ value.identities, ∀ identity' ∈ value'.identities,
      relates identity identity' → image identity = identity') :
    value.rename image = value' := by
  have identity : image value.identity = value'.identity :=
    takes _ (by simp [identities]) _ (by simp [identities]) values.identity
  have reference : image value.reference = value'.reference :=
    takes _ (by simp [identities]) _ (by simp [identities]) values.reference
  obtain ⟨kind, mayBeNull, readOnly, offset, bounds, mapIndex, range, size⟩ := values
  rw [rename, identity, reference, kind, mayBeNull, readOnly, offset, bounds, mapIndex, range,
    size]

end AbstractValue

theorem StackSlot.Corresponds.rename_eq
    {slot slot' : StackSlot} (slots : slot.Corresponds relates slot')
    (takes : ∀ value ∈ slot.spill?, ∀ value' ∈ slot'.spill?,
      ∀ identity ∈ value.identities, ∀ identity' ∈ value'.identities,
        relates identity identity' → image identity = identity') :
    { slot with spill? := slot.spill?.map (AbstractValue.rename image) } = slot' := by
  obtain ⟨bytes, spill?⟩ := slot
  obtain ⟨bytes', spill?'⟩ := slot'
  obtain ⟨rfl, spills⟩ := slots
  cases spills with
  | none => rfl
  | some values => rw [Option.map_some, values.rename_eq (takes _ rfl _ rfl)]

/-- References related pairwise are renamed into one another. -/
theorem map_eq_of_related
    {held held' : List Nat} (both : List.Forall₂ relates held held')
    (takes : ∀ identity ∈ held, ∀ identity' ∈ held',
      relates identity identity' → image identity = identity') :
    held.map image = held' := by
  induction both with
  | nil => rfl
  | cons same rest hypothesis =>
      rw [List.map_cons, takes _ List.mem_cons_self _ List.mem_cons_self same,
        hypothesis fun identity listed identity' listed' =>
          takes identity (List.mem_cons_of_mem _ listed) identity' (List.mem_cons_of_mem _ listed')]

/-! ## Renamed states -/

namespace AbstractState

variable {state state' state'' : AbstractState} {identity : Nat}

/-- All that the state mentions as an identity: in registers, in the frame and as a record held. -/
def identities (state : AbstractState) : List Nat :=
  (state.registers.toList ++ state.stack.spills).flatMap AbstractValue.identities ++
    state.references

/-- Put what they are renamed to in the place of all identities. -/
def rename (image : Nat → Nat) (state : AbstractState) : AbstractState :=
  { state.mapValues (AbstractValue.rename image) with
    references := state.references.map image }

theorem mem_identities_of_register
    {name : RegisterName} (mentioned : identity ∈ (state.register name).identities) :
    identity ∈ state.identities := by
  have listed : state.register name ∈ state.registers.toList :=
    Vector.mem_toList_iff.mpr (Vector.getElem_mem name.isLt)
  exact List.mem_append_left _
    (List.mem_flatMap.mpr ⟨_, List.mem_append_left _ listed, mentioned⟩)

theorem mem_identities_of_spill
    {index : Nat} {inside : index < 64} {value : AbstractValue}
    (spilled : state.stack.slots[index].spill? = some value)
    (mentioned : identity ∈ value.identities) :
    identity ∈ state.identities := by
  have listed : value ∈ state.stack.spills :=
    List.mem_filterMap.mpr
      ⟨_, Vector.mem_toList_iff.mpr (Vector.getElem_mem inside), spilled⟩
  exact List.mem_append_left _
    (List.mem_flatMap.mpr ⟨_, List.mem_append_right _ listed, mentioned⟩)

theorem mem_identities_of_reference
    (held : identity ∈ state.references) :
    identity ∈ state.identities :=
  List.mem_append_right _ held

/-- A state corresponds to its renaming. -/
theorem corresponds_rename (image : Nat → Nat) (state : AbstractState) :
    state.Corresponds (fun identity identity' => image identity = identity')
      (state.rename image) where
  registers name := by
    have renamed : (state.rename image).register name =
        (state.register name).rename image := Vector.getElem_map ..
    rw [renamed]
    exact AbstractValue.corresponds_rename image _
  stack := by
    refine .of_inside fun byte inside => ?_
    have renamed : (state.rename image).stack.slotOf byte = _ :=
      StackFrame.slotOf_mapSpills state.stack (AbstractValue.rename image) inside
    rw [renamed]
    refine ⟨rfl, ?_⟩
    cases (state.stack.slotOf byte).spill? with
    | none => exact .none
    | some value => exact .some (AbstractValue.corresponds_rename image value)
  references := by
    refine List.forall₂_map_right_iff.mpr ?_
    exact List.forall₂_same.mpr fun _ _ => rfl

/-- A state that corresponds is the state renamed, by all that renames what is related. -/
theorem Corresponds.rename_eq
    (states : state.Corresponds relates state')
    (takes : ∀ identity ∈ state.identities, ∀ identity' ∈ state'.identities,
      relates identity identity' → image identity = identity') :
    state.rename image = state' := by
  have registers : state.registers.map (AbstractValue.rename image) = state'.registers := by
    refine Vector.ext fun index inside => ?_
    rw [Vector.getElem_map]
    have same := states.registers ⟨index, inside⟩
    exact same.rename_eq fun identity mentioned identity' mentioned' =>
      takes identity (mem_identities_of_register mentioned) identity'
        (mem_identities_of_register mentioned')
  have slots : (state.stack.mapSpills (AbstractValue.rename image)).slots =
      state'.stack.slots := by
    refine Vector.ext fun index inside => ?_
    rw [StackFrame.mapSpills, Vector.getElem_map]
    have same := states.stack.slots inside
    refine same.rename_eq fun _ spilled _ spilled' identity mentioned identity' mentioned' => ?_
    exact takes identity (mem_identities_of_spill spilled mentioned) identity'
      (mem_identities_of_spill spilled' mentioned')
  have references : state.references.map image = state'.references :=
    map_eq_of_related states.references fun identity held identity' held' =>
      takes identity (mem_identities_of_reference held) identity'
        (mem_identities_of_reference held')
  obtain ⟨_, ⟨_⟩, _⟩ := state'
  obtain rfl := registers
  obtain rfl := slots
  obtain rfl := references
  rfl

/-! ## Alike and renamed -/

/-- Alike states are alike the other way round. -/
theorem isAlike_symm (alike : state.isAlike state' = true) : state'.isAlike state = true := by
  obtain ⟨relates, zero, oneToOne, states⟩ := isAlike_iff.mp alike
  exact states.symm.isAlike zero
    ⟨fun _ _ _ first second => oneToOne.2 first second,
      fun _ _ _ first second => oneToOne.1 first second⟩

/-- States alike to a third one through a second are alike. -/
theorem isAlike_trans
    (first : state.isAlike state' = true) (second : state'.isAlike state'' = true) :
    state.isAlike state'' = true := by
  obtain ⟨relates, zero, oneToOne, states⟩ := isAlike_iff.mp first
  obtain ⟨relates', zero', oneToOne', states'⟩ := isAlike_iff.mp second
  refine (states.trans states').isAlike ⟨0, zero, zero'⟩ ⟨?_, ?_⟩
  · rintro identity other _ ⟨between, related, related'⟩ ⟨between', other', other''⟩
    obtain rfl := oneToOne'.1 related' other''
    exact oneToOne.1 related other'
  · rintro _ identity other ⟨between, related, related'⟩ ⟨between', other', other''⟩
    obtain rfl := oneToOne.2 related other'
    exact oneToOne'.2 related' other''

/-- A state is alike every renaming that is a permutation and keeps zero. -/
theorem isAlike_rename
    (permutation : Equiv.Perm Nat) (zero : permutation 0 = 0) (state : AbstractState) :
    state.isAlike (state.rename permutation) = true := by
  refine (corresponds_rename permutation state).isAlike zero ⟨?_, ?_⟩
  · intro identity other _ first second
    exact permutation.injective (first.trans second.symm)
  · intro _ _ _ first second
    exact first.symm.trans second

/-- A state is alike to itself, as it is to what it is renamed to. -/
theorem isAlike_refl (state : AbstractState) : state.isAlike state = true := by
  have renamed := isAlike_rename 1 rfl state
  exact isAlike_trans renamed (isAlike_symm renamed)

/-- The permutation that turns one of two states alike into the other can leave all identities in
place that neither of them mentions. -/
theorem exists_perm_of_isAlike (alike : state.isAlike state' = true) :
    ∃ permutation : Equiv.Perm Nat, permutation 0 = 0 ∧
      (∀ identity,
        permutation identity = identity ∨ identity ∈ state.identities ++ state'.identities) ∧
      state.rename permutation = state' := by
  obtain ⟨relates, zero, oneToOne, states⟩ := isAlike_iff.mp alike
  obtain ⟨permutation, moves, takes⟩ := exists_perm_of_biUnique oneToOne
    (0 :: (state.identities ++ state'.identities)).toFinset
  have fixed : permutation 0 = 0 := takes 0 (by simp) 0 (by simp) zero
  refine ⟨permutation, fixed, fun identity => ?_, states.rename_eq ?_⟩
  · rcases moves identity with same | listed
    · exact .inl same
    · rcases List.mem_cons.mp (List.mem_toFinset.mp listed) with rfl | mentioned
      · exact .inl fixed
      · exact .inr mentioned
  · intro identity mentioned identity' mentioned' related
    exact takes identity (by simp [mentioned]) identity' (by simp [mentioned']) related

/--
Being alike is an equivalence of states, whatever they hold and wherever their
identities are repeated: states are alike exactly when a permutation of the
identities that leaves zero in its place turns the one into the other, and then
one that moves none but the identities mentioned by either does.
-/
theorem isAlike_by_permutation :
    (Equivalence fun state state' : AbstractState => state.isAlike state' = true) ∧
      ∀ state state' : AbstractState,
        [state.isAlike state' = true,
          ∃ permutation : Equiv.Perm Nat, permutation 0 = 0 ∧ state.rename permutation = state',
          ∃ permutation : Equiv.Perm Nat, permutation 0 = 0 ∧
            (∀ identity, permutation identity = identity ∨
              identity ∈ state.identities ++ state'.identities) ∧
            state.rename permutation = state'].TFAE := by
  refine ⟨⟨isAlike_refl, isAlike_symm, isAlike_trans⟩, fun state state' => ?_⟩
  tfae_have 1 → 3 := exists_perm_of_isAlike
  tfae_have 3 → 2 := by
    rintro ⟨permutation, zero, _, renamed⟩
    exact ⟨permutation, zero, renamed⟩
  tfae_have 2 → 1 := by
    rintro ⟨permutation, zero, rfl⟩
    exact isAlike_rename permutation zero state
  tfae_finish

/-- Two registers that share their identity are not alike to two that do not. -/
example :
    let shared := (entry.setRegister 6 (.mapValueOrNull 0 3)).setRegister 7 (.mapValueOrNull 0 3)
    let renamed := (entry.setRegister 6 (.mapValueOrNull 0 9)).setRegister 7 (.mapValueOrNull 0 9)
    let parted := renamed.setRegister 7 (.mapValueOrNull 0 10)
    (shared.isAlike renamed, shared.isAlike parted, parted.isAlike shared) =
      (true, false, false) := by
  decide +kernel

end AbstractState

end PacketFilter
