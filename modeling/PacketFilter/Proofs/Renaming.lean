import Mathlib.Data.List.Nodup
import PacketFilter.Abstract.Renaming
import PacketFilter.Proofs.Correspondence

/-!
# States alike

A renaming is one to one at every moment while it is built up, and what it has
matched stays matched.  So the renaming at the end relates all that the
comparison went through, and a machine that the first state describes is
described by the second, once its identities are read as what is renamed to
them.
-/

namespace PacketFilter

namespace Renaming

/-- No identity is renamed to two, and no two to one. -/
def OneToOne (matching : Renaming) : Prop :=
  ∀ first ∈ matching.pairs, ∀ second ∈ matching.pairs,
    first.1 = second.1 ↔ first.2 = second.2

/-- The renaming takes the first identity to the second; zero stands for itself. -/
def Relates (matching : Renaming) (current stored : Nat) : Prop :=
  current = 0 ∧ stored = 0 ∨ current ≠ 0 ∧ stored ≠ 0 ∧ (current, stored) ∈ matching.pairs

/-- A renaming that has been built up further. -/
structure Extends (before after : Renaming) : Prop where
  oneToOne : before.OneToOne → after.OneToOne
  pairs : ∀ pair ∈ before.pairs, pair ∈ after.pairs

variable {matching after : Renaming} {current stored current' stored' : Nat}

theorem empty_oneToOne : empty.OneToOne := by
  rintro _ ⟨⟩

theorem Extends.refl (matching : Renaming) : matching.Extends matching :=
  ⟨fun oneToOne => oneToOne, fun _ held => held⟩

theorem Extends.trans
    {first second third : Renaming}
    (earlier : first.Extends second) (later : second.Extends third) :
    first.Extends third :=
  ⟨fun oneToOne => later.oneToOne (earlier.oneToOne oneToOne),
    fun pair held => later.pairs pair (earlier.pairs pair held)⟩

theorem Relates.extend
    (relates : matching.Relates current stored) (extends' : matching.Extends after) :
    after.Relates current stored := by
  rcases relates with zero | ⟨first, second, held⟩
  · exact .inl zero
  · exact .inr ⟨first, second, extends'.pairs _ held⟩

theorem Relates.eq_iff
    (relates : matching.Relates current stored) (oneToOne : matching.OneToOne)
    (relates' : matching.Relates current' stored') :
    current = current' ↔ stored = stored' := by
  rcases relates with ⟨rfl, rfl⟩ | ⟨first, second, held⟩
  · rcases relates' with ⟨rfl, rfl⟩ | ⟨first', second', _⟩
    · exact Iff.rfl
    · exact iff_of_false first'.symm second'.symm
  · rcases relates' with ⟨rfl, rfl⟩ | ⟨_, _, held'⟩
    · exact iff_of_false first second
    · exact oneToOne _ held _ held'

theorem relates_biUnique (oneToOne : matching.OneToOne) : Relator.BiUnique matching.Relates :=
  ⟨fun _ _ _ first second => (first.eq_iff oneToOne second).mpr rfl,
    fun _ _ _ first second => (first.eq_iff oneToOne second).mp rfl⟩

/-! ## Lookups -/

theorem mem_of_image
    (found : matching.image? current = some stored) :
    (current, stored) ∈ matching.pairs := by
  rcases List.lookup_eq_some_iff.mp found with ⟨before, rest, split, _⟩
  rw [split]
  exact List.mem_append_right _ (List.mem_cons_self ..)

theorem ne_of_image
    (absent : matching.image? current = none) {pair : Nat × Nat} (held : pair ∈ matching.pairs) :
    pair.1 ≠ current := by
  have other := List.lookup_eq_none_iff.mp absent pair held
  rw [bne_iff_ne] at other
  exact other.symm

theorem mem_of_preimage
    (found : matching.preimage? stored = some current) :
    (current, stored) ∈ matching.pairs := by
  rcases List.lookup_eq_some_iff.mp found with ⟨before, rest, split, _⟩
  have held : (stored, current) ∈ matching.pairs.map Prod.swap := by
    rw [split]
    exact List.mem_append_right _ (List.mem_cons_self ..)
  rcases List.mem_map.mp held with ⟨pair, held, swapped⟩
  rw [← Prod.swap_swap pair, swapped] at held
  exact held

theorem ne_of_preimage
    (absent : matching.preimage? stored = none) {pair : Nat × Nat} (held : pair ∈ matching.pairs) :
    pair.2 ≠ stored := by
  have other := List.lookup_eq_none_iff.mp absent pair.swap (List.mem_map_of_mem held)
  rw [bne_iff_ne] at other
  exact other.symm

/-! ## Building up -/

theorem match_sound
    (matched : matching.match? current stored = some after) :
    matching.Extends after ∧ after.Relates current stored := by
  simp only [match?] at matched
  split at matched
  case isTrue zero =>
    split at matched
    case isTrue same =>
      cases matched
      refine ⟨.refl matching, .inl ?_⟩
      rcases zero with rfl | rfl
      · exact ⟨rfl, same.symm⟩
      · exact ⟨same, rfl⟩
    case isFalse => cases matched
  case isFalse nonzero =>
    rw [not_or] at nonzero
    split at matched
    case h_1 image preimage hasImage hasPreimage =>
      split at matched
      case isTrue same =>
        cases matched
        have held := mem_of_image hasImage
        rw [same.1] at held
        exact ⟨.refl matching, .inr ⟨nonzero.1, nonzero.2, held⟩⟩
      case isFalse => cases matched
    case h_2 noImage noPreimage =>
      cases matched
      refine ⟨⟨fun oneToOne => ?_, fun _ held => List.mem_cons_of_mem _ held⟩,
        .inr ⟨nonzero.1, nonzero.2, List.mem_cons_self ..⟩⟩
      intro first isFirst second isSecond
      rcases List.mem_cons.mp isFirst with rfl | isFirst
      · rcases List.mem_cons.mp isSecond with rfl | isSecond
        · exact iff_of_true rfl rfl
        · exact iff_of_false (ne_of_image noImage isSecond).symm
            (ne_of_preimage noPreimage isSecond).symm
      · rcases List.mem_cons.mp isSecond with rfl | isSecond
        · exact iff_of_false (ne_of_image noImage isFirst) (ne_of_preimage noPreimage isFirst)
        · exact oneToOne first isFirst second isSecond
    case h_3 => cases matched

theorem matchValues_sound
    {current stored : AbstractValue}
    (matched : matching.matchValues? current stored = some after) :
    matching.Extends after ∧ current.Corresponds after.Relates stored := by
  simp only [matchValues?] at matched
  split at matched
  case isTrue agree =>
    rcases Option.bind_eq_some_iff.mp matched with ⟨between, identities, references⟩
    rcases match_sound identities with ⟨earlier, identity⟩
    rcases match_sound references with ⟨later, reference⟩
    rcases agree with ⟨kind, mayBeNull, readOnly, offset, bounds, mapIndex, range, size⟩
    exact ⟨earlier.trans later, kind, mayBeNull, readOnly, offset, bounds, mapIndex, range, size,
      identity.extend later, reference⟩
  case isFalse => cases matched

theorem matchSlots_sound
    {current stored : StackSlot}
    (matched : matching.matchSlots? current stored = some after) :
    matching.Extends after ∧ current.Corresponds after.Relates stored := by
  simp only [matchSlots?] at matched
  split at matched
  case isTrue => cases matched
  case isFalse same =>
    rw [ne_eq, not_not] at same
    split at matched
    case h_1 value value' held held' =>
      rcases matchValues_sound matched with ⟨extends', related⟩
      refine ⟨extends', same, ?_⟩
      rw [held, held']
      exact .some related
    case h_2 none none' =>
      cases matched
      refine ⟨.refl matching, same, ?_⟩
      rw [none, none']
      exact .none
    case h_3 => cases matched

/-- Lists are matched element by element. -/
theorem matchAll_sound
    {α : Type} {matchOne? : Renaming → α → α → Option Renaming}
    {related : Renaming → α → α → Prop}
    (sound : ∀ (matching after : Renaming) (current stored : α),
      matchOne? matching current stored = some after →
        matching.Extends after ∧ related after current stored)
    (monotone : ∀ (matching after : Renaming) (current stored : α),
      related matching current stored → matching.Extends after → related after current stored) :
    ∀ {currents storeds : List α} {matching after : Renaming},
      matchAll? matchOne? matching currents storeds = some after →
        matching.Extends after ∧ List.Forall₂ (related after) currents storeds := by
  intro currents
  induction currents with
  | nil =>
      intro storeds matching after matched
      cases storeds with
      | nil =>
          cases matched
          exact ⟨.refl matching, .nil⟩
      | cons stored storeds => cases matched
  | cons current currents hypothesis =>
      intro storeds matching after matched
      cases storeds with
      | nil => cases matched
      | cons stored storeds =>
          rcases Option.bind_eq_some_iff.mp matched with ⟨between, first, rest⟩
          rcases sound _ _ _ _ first with ⟨earlier, relates⟩
          rcases hypothesis rest with ⟨later, others⟩
          exact ⟨earlier.trans later, .cons (monotone _ _ _ _ relates later) others⟩

/-- The renaming turns the one state into the other. -/
theorem ofStates_sound
    {current stored : AbstractState}
    (alike : ofStates? current stored = some matching) :
    matching.OneToOne ∧ current.Corresponds matching.Relates stored := by
  simp only [ofStates?] at alike
  rcases Option.bind_eq_some_iff.mp alike with ⟨first, registers, alike⟩
  rcases Option.bind_eq_some_iff.mp alike with ⟨second, slots, references⟩
  have extendValues (matching after : Renaming) (value value' : AbstractValue)
      (same : value.Corresponds matching.Relates value') (further : matching.Extends after) :
      value.Corresponds after.Relates value' :=
    same.mono fun _ _ related => related.extend further
  have extendSlots (matching after : Renaming) (slot slot' : StackSlot)
      (same : slot.Corresponds matching.Relates slot') (further : matching.Extends after) :
      slot.Corresponds after.Relates slot' :=
    same.mono fun _ _ related => related.extend further
  rcases @matchAll_sound _ matchValues? (fun matching => AbstractValue.Corresponds matching.Relates)
    (fun _ _ _ _ => matchValues_sound) extendValues _ _ _ _ registers with ⟨start, registers⟩
  rcases @matchAll_sound _ matchSlots? (fun matching => StackSlot.Corresponds matching.Relates)
    (fun _ _ _ _ => matchSlots_sound) extendSlots _ _ _ _ slots with ⟨middle, slots⟩
  rcases @matchAll_sound _ match? Relates (fun _ _ _ _ => match_sound)
    (fun _ _ _ _ => Relates.extend) _ _ _ _ references with ⟨finish, references⟩
  have all := start.trans (middle.trans finish)
  refine ⟨all.oneToOne empty_oneToOne, fun name => ?_, .of_inside fun byte small => ?_, references⟩
  · have related := registers.get (by simp : name.val < current.registers.toList.length)
      (by simp : name.val < stored.registers.toList.length)
    simp only [List.get_eq_getElem, Vector.getElem_toList] at related
    exact extendValues _ _ _ _ related (middle.trans finish)
  · have short : byte / 8 < 64 := by
      unfold StackFrame.size at small
      omega
    have related := slots.get (by simpa using short : byte / 8 < current.stack.slots.toList.length)
      (by simpa using short : byte / 8 < stored.stack.slots.toList.length)
    simp only [List.get_eq_getElem, Vector.getElem_toList] at related
    rw [StackFrame.slotOf, StackFrame.slotOf, Vector.getElem?_eq_getElem short,
      Vector.getElem?_eq_getElem short]
    exact extendSlots _ _ _ _ related finish

/-- How the identities of the second state are read when those of the first are read in the given
way. -/
def revalue (matching : Renaming) (valuation : Nat → Word) (stored : Nat) : Word :=
  if stored = 0 then valuation 0 else valuation ((matching.preimage? stored).getD 0)

theorem revalue_eq
    (oneToOne : matching.OneToOne) (relates : matching.Relates current stored)
    (valuation : Nat → Word) :
    matching.revalue valuation stored = valuation current := by
  rw [revalue]
  rcases relates with ⟨rfl, rfl⟩ | ⟨_, nonzero, held⟩
  · rw [if_pos rfl]
  · rw [if_neg nonzero]
    cases found : matching.preimage? stored with
    | none => exact absurd rfl (ne_of_preimage found held)
    | some preimage =>
        have same : preimage = current := (oneToOne _ (mem_of_preimage found) _ held).mpr rfl
        rw [Option.getD_some, same]

/-! ## Readings -/

section

variable {scene : Scene} {valuation : Nat → Word} {machine : Machine} {memory : Memory}
variable {twin : Bytes} {state state' : AbstractState} {value value' : AbstractValue} {word : Word}

theorem exists_related
    {α β : Type} {related : α → β → Prop} {left : List α} {right : List β} {second : β}
    (both : List.Forall₂ related left right) (held : second ∈ right) :
    ∃ first ∈ left, related first second := by
  induction both with
  | nil => cases held
  | cons here _ hypothesis =>
      rcases List.mem_cons.mp held with rfl | later
      · exact ⟨_, List.mem_cons_self .., here⟩
      · rcases hypothesis later with ⟨first, there, related⟩
        exact ⟨first, List.mem_cons_of_mem _ there, related⟩

theorem mem_iff
    (oneToOne : matching.OneToOne) (states : state.Corresponds matching.Relates state')
    (related : matching.Relates current stored) :
    current ∈ state.references ↔ stored ∈ state'.references :=
  List.rel_mem (relates_biUnique oneToOne) related states.references

theorem carries
    (oneToOne : matching.OneToOne) (states : state.Corresponds matching.Relates state')
    (related : value.Corresponds matching.Relates value') :
    (state.reading scene valuation memory).Carries
      (state'.reading scene (matching.revalue valuation) memory) value value' where
  scene := rfl
  memory := .refl memory
  same := by
    rcases value with ⟨⟩
    rcases related with ⟨rfl, rfl, rfl, rfl, rfl, rfl, rfl, rfl, _, _⟩
    rfl
  nonzero nonzero := by
    rcases related.identity with ⟨zero, _⟩ | ⟨_, nonzero', _⟩
    · exact absurd zero nonzero
    · exact nonzero'
  free free := by
    rcases related.reference with ⟨_, free'⟩ | ⟨nonzero, _⟩
    · exact free'
    · exact absurd free nonzero
  named named := (related.reference.eq_iff oneToOne related.identity).mp named
  valuation := revalue_eq oneToOne related.identity valuation
  records _ held _ _ _ opened := ⟨(mem_iff oneToOne states related.identity).mp held, opened⟩

theorem describes
    (oneToOne : matching.OneToOne) (states : state.Corresponds matching.Relates state')
    (related : value.Corresponds matching.Relates value')
    (describes : (state.reading scene valuation memory).Describes value word) :
    (state'.reading scene (matching.revalue valuation) memory).Describes value' word :=
  (carries oneToOne states related).describes describes

theorem tracks
    (oneToOne : matching.OneToOne) (states : state.Corresponds matching.Relates state')
    (tracks : (state.reading scene valuation memory).Tracks) :
    (state'.reading scene (matching.revalue valuation) memory).Tracks := by
  have base {reference reference' : Nat} (related : matching.Relates reference reference') :
      matching.revalue valuation reference' = valuation reference :=
    revalue_eq oneToOne related valuation
  constructor
  case nodup =>
    exact (List.rel_nodup (relates_biUnique oneToOne) states.references).mp tracks.nodup
  case opened =>
    intro reference' held' nonNull
    rcases exists_related states.references held' with ⟨reference, held, related⟩
    simp only [AbstractState.reading, base related] at nonNull ⊢
    exact tracks.opened reference held nonNull
  case known =>
    intro number isOpen
    rcases tracks.known number isOpen with ⟨reference, held, opens⟩
    rcases exists_related states.references.flip held with ⟨reference', held', related⟩
    refine ⟨reference', held', ?_⟩
    simp only [AbstractState.reading, base related]
    exact opens
  case distinct =>
    intro first' isFirst' second' isSecond' number opens opens'
    rcases exists_related states.references isFirst' with ⟨first, isFirst, related⟩
    rcases exists_related states.references isSecond' with ⟨second, isSecond, related'⟩
    simp only [AbstractState.reading, base related] at opens
    simp only [AbstractState.reading, base related'] at opens'
    rw [← related.eq_iff oneToOne related']
    exact tracks.distinct first isFirst second isSecond number opens opens'

end

end Renaming

/-- A machine that one state describes is described by every state alike. -/
theorem AbstractState.Represents.alike
    {state state' : AbstractState} {scene : Scene} {valuation : Nat → Word} {machine : Machine}
    {twin : Bytes}
    (represents : state.Represents scene valuation machine twin)
    (alike : state.isAlike state' = true) :
    ∃ valuation', state'.Represents scene valuation' machine twin := by
  rcases Option.isSome_iff_exists.mp alike with ⟨matching, matched⟩
  rcases Renaming.ofStates_sound matched with ⟨oneToOne, states⟩
  refine ⟨matching.revalue valuation, represents.weaken represents.sound rfl ?_ ?_ ?_ ?_ ?_⟩
  · rw [Renaming.revalue, if_pos rfl]
    exact represents.zero
  · exact fun name word => Renaming.describes oneToOne states (states.registers name)
  · exact fun byte _ => .inl (states.stack.byteAt byte)
  · intro byte small value' spilled
    have spills := (states.stack byte).spills
    rw [spilled] at spills
    generalize state.stack.slotOf byte = slot at spills ⊢
    rcases slot with ⟨_, _ | value⟩
    · cases spills
    · cases spills with
      | some related =>
          exact ⟨value, rfl, fun word => Renaming.describes oneToOne states related⟩
  · exact Renaming.tracks oneToOne states represents.tracks

end PacketFilter
