import PacketFilter.Proofs.Reachable

/-!
# Routes

A route lists the slots that control comes by on its way along edges from one
slot to another; a cycle is a route that comes back to where it began.  Routes
say along which edges control went, which reachability alone leaves open.
-/

namespace PacketFilter.Code

variable {code : Code} {start slot target : Nat} {slots : List Nat}

/-- The slots that control comes by on its way along edges from one slot to another, both of them
included. -/
inductive Route (code : Code) : Nat → Nat → List Nat → Prop
  | here (slot : Nat) : Route code slot slot [slot]
  | along {slot next target : Nat} {slots : List Nat} (edge : code.Edge slot next)
      (onward : Route code next target slots) : Route code slot target (slot :: slots)

theorem Route.first_mem (route : code.Route start target slots) : start ∈ slots := by
  cases route with
  | here => exact List.mem_singleton_self start
  | along => exact List.mem_cons_self

theorem Route.last_mem (route : code.Route start target slots) : target ∈ slots := by
  induction route with
  | here => exact List.mem_singleton_self _
  | along edge onward listed => exact List.mem_cons_of_mem _ listed

/-- A route may be prolonged by an edge. -/
theorem Route.concat (route : code.Route start slot slots) (edge : code.Edge slot target) :
    code.Route start target (slots ++ [target]) := by
  induction route with
  | here slot => exact .along edge (.here target)
  | along first onward prolonged => exact .along first (prolonged edge)

/-! ## Cycles -/

/-- The neighbours in a list of slots, in pairs. -/
def hops (slots : List Nat) : List (Nat × Nat) :=
  slots.zip slots.tail

theorem Route.hops_cons (route : code.Route slot target slots) (start : Nat) :
    hops (start :: slots) = (start, slot) :: hops slots := by
  cases route <;> rfl

/-- The list goes from a reachable slot along at least one edge back to that slot, which it names
twice. -/
inductive Cycle (code : Code) : List Nat → Prop
  | closes {slot target : Nat} {slots : List Nat}
      (reached : Relation.ReflTransGen code.Edge 0 slot) (edge : code.Edge slot target)
      (back : code.Route target slot slots) : Cycle code (slot :: slots)

end PacketFilter.Code
