import PacketFilter.Proofs.Checked
import PacketFilter.Proofs.Correspondence

/-!
# Checks on two paths

The identities handed out on two paths are matched one to one, as far as they
have been handed out.  A check is carried out alike on both when it turns both
away for the same reason, or lets both through with results that correspond
once the identities that it hands out are matched as well.
-/

namespace PacketFilter

/-! ## Matching identities -/

/-- A one-to-one matching of identities handed out on two paths. -/
structure Alignment where
  relates : Nat → Nat → Prop
  /-- The last identity handed out on the first path. -/
  last : Nat
  /-- The last identity handed out on the second path. -/
  last' : Nat
  zero : relates 0 0
  oneToOne : Relator.BiUnique relates
  bounded : ∀ {identity identity' : Nat}, relates identity identity' →
    identity ≤ last ∧ identity' ≤ last'

/-- Two one-to-one relations in a row are one. -/
theorem biUnique_comp
    {relates relates' : Nat → Nat → Prop} (first : Relator.BiUnique relates)
    (second : Relator.BiUnique relates') : Relator.BiUnique (Relation.Comp relates relates') := by
  constructor
  · rintro identity identity' image ⟨between, earlier, later⟩ ⟨between', earlier', later'⟩
    obtain rfl := second.1 later later'
    exact first.1 earlier earlier'
  · rintro identity image image' ⟨between, earlier, later⟩ ⟨between', earlier', later'⟩
    obtain rfl := first.2 earlier earlier'
    exact second.2 later later'

namespace Alignment

/-- More identities have been handed out and matched. -/
structure Extends (before after : Alignment) : Prop where
  relates : ∀ identity identity' : Nat, before.relates identity identity' →
    after.relates identity identity'
  last : before.last ≤ after.last
  last' : before.last' ≤ after.last'

theorem Extends.refl (alignment : Alignment) : alignment.Extends alignment :=
  ⟨fun _ _ related => related, Nat.le_refl _, Nat.le_refl _⟩

/-- No identity has been handed out. -/
def start : Alignment where
  relates identity identity' := identity = 0 ∧ identity' = 0
  last := 0
  last' := 0
  zero := ⟨rfl, rfl⟩
  oneToOne := by
    constructor
    · rintro _ _ _ ⟨rfl, _⟩ ⟨rfl, _⟩
      rfl
    · rintro _ _ _ ⟨_, rfl⟩ ⟨_, rfl⟩
      rfl
  bounded related := ⟨Nat.le_of_eq related.1, Nat.le_of_eq related.2⟩

/-- The next identities on both paths are matched. -/
def fresh (alignment : Alignment) : Alignment where
  relates identity identity' := alignment.relates identity identity' ∨
    identity = alignment.last + 1 ∧ identity' = alignment.last' + 1
  last := alignment.last + 1
  last' := alignment.last' + 1
  zero := .inl alignment.zero
  oneToOne := by
    refine ⟨fun first second image related related' => ?_,
      fun first image image' related related' => ?_⟩
    · rcases related with related | ⟨rfl, rfl⟩
      · rcases related' with related' | ⟨rfl, rfl⟩
        · exact alignment.oneToOne.1 related related'
        · exact absurd (alignment.bounded related).2 (Nat.not_succ_le_self _)
      · rcases related' with related' | ⟨rfl, _⟩
        · exact absurd (alignment.bounded related').2 (Nat.not_succ_le_self _)
        · rfl
    · rcases related with related | ⟨rfl, rfl⟩
      · rcases related' with related' | ⟨rfl, rfl⟩
        · exact alignment.oneToOne.2 related related'
        · exact absurd (alignment.bounded related).1 (Nat.not_succ_le_self _)
      · rcases related' with related' | ⟨_, rfl⟩
        · exact absurd (alignment.bounded related').1 (Nat.not_succ_le_self _)
        · rfl
  bounded := by
    rintro identity identity' (related | ⟨rfl, rfl⟩)
    · exact ⟨(alignment.bounded related).1.trans (Nat.le_succ _),
        (alignment.bounded related).2.trans (Nat.le_succ _)⟩
    · exact ⟨Nat.le_refl _, Nat.le_refl _⟩

/-- The two paths in the other order. -/
def symm (alignment : Alignment) : Alignment where
  relates := flip alignment.relates
  last := alignment.last'
  last' := alignment.last
  zero := alignment.zero
  oneToOne := ⟨fun _ _ _ first second => alignment.oneToOne.2 first second,
    fun _ _ _ first second => alignment.oneToOne.1 first second⟩
  bounded related := (alignment.bounded related).symm

/-- By way of a third path. -/
def trans (first second : Alignment) : Alignment where
  relates := Relation.Comp first.relates second.relates
  last := first.last
  last' := second.last'
  zero := ⟨0, first.zero, second.zero⟩
  oneToOne := biUnique_comp first.oneToOne second.oneToOne
  bounded := by
    rintro identity identity' ⟨between, earlier, later⟩
    exact ⟨(first.bounded earlier).1, (second.bounded later).2⟩

/-- By way of a third path and of a fourth, which is the third with its identities renamed one to
one. -/
def through (first : Alignment) {relates : Nat → Nat → Prop} (zero : relates 0 0)
    (oneToOne : Relator.BiUnique relates) (second : Alignment) : Alignment where
  relates := Relation.Comp first.relates (Relation.Comp relates second.relates)
  last := first.last
  last' := second.last'
  zero := ⟨0, first.zero, 0, zero, second.zero⟩
  oneToOne := biUnique_comp first.oneToOne (biUnique_comp oneToOne second.oneToOne)
  bounded := by
    rintro identity identity' ⟨_, earlier, _, _, later⟩
    exact ⟨(first.bounded earlier).1, (second.bounded later).2⟩

/-- More identities have been handed out, none of which is matched. -/
def grow (alignment : Alignment) {last last' : Nat} (more : alignment.last ≤ last)
    (more' : alignment.last' ≤ last') : Alignment :=
  { alignment with
    last
    last'
    bounded := fun related =>
      ⟨(alignment.bounded related).1.trans more, (alignment.bounded related).2.trans more'⟩ }

/-- A fresh identity on both sides goes with every match made so far. -/
theorem extends_fresh (alignment : Alignment) : alignment.Extends alignment.fresh :=
  ⟨fun _ _ related => .inl related, Nat.le_succ _, Nat.le_succ _⟩

end Alignment

/-- What is known on the two paths corresponds. -/
structure Focus.Aligned (alignment : Alignment) (focus focus' : Focus) : Prop where
  state : focus.state.Corresponds alignment.relates focus'.state
  last : focus.lastIdentity = alignment.last
  last' : focus'.lastIdentity = alignment.last'

/-- What is known on the two paths corresponds, with more identities matched. -/
def Focus.AlignedFurther (alignment : Alignment) (focus focus' : Focus) : Prop :=
  ∃ after, alignment.Extends after ∧ focus.Aligned after focus'

/-- The values made on the two paths correspond as well. -/
def Alignment.Yields (alignment : Alignment) (made made' : AbstractValue × Focus) : Prop :=
  ∃ after, alignment.Extends after ∧ made.1.Corresponds after.relates made'.1 ∧
    made.2.Aligned after made'.2

/-! ## Agreement -/

/-- Both come out well, with results that are related, or both fail, with errors that are. -/
inductive Agree {Error Error' α β : Type} (excused : Error → Error' → Prop)
    (related : α → β → Prop) : Except Error α → Except Error' β → Prop
  | passed {result : α} {result' : β} (same : related result result') :
      Agree excused related (.ok result) (.ok result')
  | failed {error : Error} {error' : Error'} (same : excused error error') :
      Agree excused related (.error error) (.error error')

/-- Both checks are passed or both turn the program away for the same reason. -/
def Checked.Agree {α β : Type} (related : α → β → Prop) (check : Checked α) (check' : Checked β) :
    Prop :=
  PacketFilter.Agree (fun cause cause' => cause.reason = cause'.reason) related check check'

namespace Checked.Agree

variable {α β γ δ : Type} {related : α → β → Prop} {related' : γ → δ → Prop}

theorem of_eq {check check' : Checked α} (same : check' = check) :
    Agree (· = ·) check check' := by
  subst same
  cases check' with
  | error cause => exact .failed rfl
  | ok result => exact .passed rfl

/-- Agreement on more is agreement on less. -/
theorem mono
    {weaker : α → β → Prop} {check : Checked α} {check' : Checked β}
    (agree : Agree related check check')
    (mono : ∀ result result', related result result' → weaker result result') :
    Agree weaker check check' := by
  cases agree with
  | passed same => exact .passed (mono _ _ same)
  | failed same => exact .failed same

/-- Checks that agree step by step agree as a whole. -/
theorem bind
    {first : Checked α} {first' : Checked β} {next : α → Checked γ} {next' : β → Checked δ}
    (agree : Agree related first first')
    (later : ∀ result result', related result result' →
      Agree related' (next result) (next' result')) :
    Agree related' (first >>= next) (first' >>= next') := by
  cases agree with
  | passed same => exact later _ _ same
  | failed same => exact .failed same

/-- A check that does not look at identities, and what comes after it. -/
theorem bind_eq
    {first first' : Checked α} {next : α → Checked γ} {next' : α → Checked δ}
    (same : first' = first) (later : ∀ result, Agree related' (next result) (next' result)) :
    Agree related' (first >>= next) (first' >>= next') :=
  bind (of_eq same) fun result _ same => same ▸ later result

/-- A demand is met on both sides or on neither, and what follows agrees. -/
theorem demand_bind
    {condition condition' : Prop} [Decidable condition] [Decidable condition']
    {cause cause' : RejectionCause} {next : Unit → Checked γ} {next' : Unit → Checked δ}
    (same : condition ↔ condition') (reason : cause.reason = cause'.reason)
    (later : condition → Agree related' (next ()) (next' ())) :
    Agree related' (demand condition cause >>= next) (demand condition' cause' >>= next') := by
  rw [demand, demand]
  by_cases holds : condition
  · rw [if_pos holds, if_pos (same.mp holds)]
    exact later holds
  · rw [if_neg holds, if_neg fun holds' => holds (same.mpr holds')]
    exact .failed reason

theorem demand
    {condition condition' : Prop} [Decidable condition] [Decidable condition']
    {cause cause' : RejectionCause} (same : condition ↔ condition')
    (reason : cause.reason = cause'.reason) :
    Agree (fun _ _ => True) (demand condition cause) (demand condition' cause') :=
  related_ite same (fun _ => .passed trivial) fun _ => .failed reason

end Checked.Agree

end PacketFilter
