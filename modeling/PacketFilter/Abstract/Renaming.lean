import PacketFilter.Abstract.State

/-!
# Equal up to renaming

Identities are handed out along a path, so what is known at one point looks
different on two paths although it is the same.  Two states are alike when a
one-to-one renaming of identities turns one into the other; zero, which stands
for no identity, is only ever renamed to itself.

The renaming is built up from left to right as the states are compared.
-/

namespace PacketFilter

/-- Pairs of identities that have been found to correspond. -/
structure Renaming where
  pairs : List (Nat × Nat) := []
  deriving DecidableEq, Repr

namespace Renaming

/-- No identity has been matched yet. -/
def empty : Renaming :=
  {}

/-- What the first identity is renamed to. -/
def image? (matching : Renaming) (current : Nat) : Option Nat :=
  matching.pairs.lookup current

/-- What is renamed to the second identity. -/
def preimage? (matching : Renaming) (stored : Nat) : Option Nat :=
  (matching.pairs.map Prod.swap).lookup stored

/-- Let two identities correspond, unless that contradicts what has been found. -/
def match? (matching : Renaming) (current stored : Nat) : Option Renaming :=
  if current = 0 ∨ stored = 0 then
    if current = stored then some matching else none
  else
    match matching.image? current, matching.preimage? stored with
    | some image, some preimage =>
      if image = stored ∧ preimage = current then some matching else none
    | none, none => some ⟨(current, stored) :: matching.pairs⟩
    | _, _ => none

/-- Two values agree on everything but their identities, and those correspond. -/
def matchValues? (matching : Renaming) (current stored : AbstractValue) : Option Renaming :=
  if current.kind = stored.kind ∧ current.mayBeNull = stored.mayBeNull ∧
      current.readOnly = stored.readOnly ∧ current.offset = stored.offset ∧
      current.bounds = stored.bounds ∧ current.mapIndex = stored.mapIndex ∧
      current.range = stored.range ∧ current.size = stored.size then
    (matching.match? current.identity stored.identity).bind fun matching =>
      matching.match? current.reference stored.reference
  else
    none

/-- Match slots of the same bytes: both hold a register spilled as a whole, and these match, or
neither does. -/
def matchSlots? (matching : Renaming) (current stored : StackSlot) : Option Renaming :=
  if current.bytes ≠ stored.bytes then
    none
  else
    match current.spill?, stored.spill? with
    | some currentValue, some storedValue => matching.matchValues? currentValue storedValue
    | none, none => some matching
    | _, _ => none

/-- Match two lists of equal length element by element. -/
def matchAll? {α : Type} (matchOne? : Renaming → α → α → Option Renaming) :
    Renaming → List α → List α → Option Renaming
  | matching, [], [] => some matching
  | matching, current :: currents, stored :: storeds =>
    (matchOne? matching current stored).bind fun matching =>
      matchAll? matchOne? matching currents storeds
  | _, _, _ => none

/-- A renaming that turns one state into the other, when the states are alike. -/
def ofStates? (current stored : AbstractState) : Option Renaming := do
  let matching ←
    matchAll? matchValues? empty current.registers.toList stored.registers.toList
  let matching ←
    matchAll? matchSlots? matching current.stack.slots.toList stored.stack.slots.toList
  matchAll? match? matching current.references stored.references

end Renaming

/-- The states are equal up to matching. -/
def AbstractState.isAlike (current stored : AbstractState) : Bool :=
  (Renaming.ofStates? current stored).isSome

end PacketFilter
