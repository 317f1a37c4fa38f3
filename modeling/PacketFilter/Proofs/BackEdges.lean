import PacketFilter.Proofs.Routes

/-!
# Back edges cut every cycle

The depth-first search for back edges ends by itself, notes no edge twice, and
notes only edges that lie on a cycle.  When it leaves a slot, each edge from
there has been noted or leads to a slot that it left before; so without the
noted edges control only ever goes to slots that were left earlier, and no
cycle is possible.
-/

namespace PacketFilter

/-! ## Successors -/

namespace Code

variable {code : Code}

/-- No successor is listed twice. -/
theorem successors_nodup (slot : Nat) : (code.successors slot).Nodup := by
  have single (slot? : Option Nat) : slot?.toList.Nodup := by
    cases slot? with
    | none => exact List.nodup_nil
    | some slot => exact List.nodup_singleton slot
  unfold successors
  split
  case h_1 => exact List.nodup_nil
  case h_2 instruction _ =>
    split
    case isTrue => exact single _
    case isFalse =>
      split
      case isTrue => exact List.nodup_nil
      case isFalse =>
        split
        case isTrue => exact single _
        case isFalse =>
          split
          case isTrue =>
            refine List.Nodup.append (single _) ((single _).filter _) ?_
            intro slot next target
            simpa [next] using (List.mem_filter.mp target).2
          case isFalse => exact single _

end Code

namespace Search

variable {code : Code} {search next : Search}

/-! ## Edges that have been looked at -/

/-- Every edge from a slot of the list has been noted, or leads to a slot further down the list. -/
def Descends (code : Code) (noted : List (Nat × Nat)) : List Nat → Prop
  | [] => True
  | slot :: below =>
    (∀ target, code.Edge slot target → (slot, target) ∈ noted ∨ target ∈ below) ∧
      Descends code noted below

/-- Every edge from a slot of the path waits to be looked at, has been noted, or leads to a slot
further in: one of the path or one that has been left. -/
def Explores (code : Code) (noted : List (Nat × Nat)) : List Nat → List (Nat × List Nat) → Prop
  | _, [] => True
  | inner, (slot, waiting) :: outer =>
    (∀ target, code.Edge slot target →
      target ∈ waiting ∨ (slot, target) ∈ noted ∨ target ∈ inner) ∧
      Explores code noted (slot :: inner) outer

/-- Noting one more edge does no harm. -/
theorem Descends.note
    {noted : List (Nat × Nat)} {slots : List Nat} (edge : Nat × Nat)
    (descends : Descends code noted slots) : Descends code (edge :: noted) slots := by
  induction slots with
  | nil => trivial
  | cons slot below continues =>
      refine ⟨fun target leads => ?_, continues descends.2⟩
      exact (descends.1 target leads).imp_left (List.mem_cons_of_mem edge)

/-- What has been explored stays so as edges and slots are added. -/
theorem Explores.mono
    {noted noted' : List (Nat × Nat)} {inner inner' : List Nat} {path : List (Nat × List Nat)}
    (explores : Explores code noted inner path) (notes : noted ⊆ noted') (grows : inner ⊆ inner') :
    Explores code noted' inner' path := by
  induction path generalizing inner inner' with
  | nil => trivial
  | cons entry outer continues =>
      refine ⟨fun target leads => ?_, continues explores.2 (List.cons_subset_cons _ grows)⟩
      rcases explores.1 target leads with waits | known | within
      · exact .inl waits
      · exact .inr (.inl (notes known))
      · exact .inr (.inr (grows within))

/-- The slots that have been left are in the order in which they were left, the latest first. -/
structure Orders (code : Code) (search : Search) : Prop where
  descends : Descends code search.backEdges search.finished
  explores : Explores code search.backEdges search.finished search.path

theorem Orders.start (code : Code) : Orders code (start code) :=
  ⟨trivial, fun _ leads => .inl leads, trivial⟩

theorem Orders.move (orders : Orders code search) (moves : Moves code search next) :
    Orders code next := by
  rcases orders with ⟨descends, explores⟩
  cases moves with
  | leaves slot outer finished edges =>
      refine ⟨⟨fun target leads => ?_, descends⟩, explores.2⟩
      exact (explores.1 target leads).resolve_left List.not_mem_nil
  | @closes slot target rest outer finished edges onPath =>
      have grows := List.subset_cons_self (slot, target) edges
      refine ⟨descends.note _, fun onward leads => ?_, explores.2.mono grows (List.Subset.refl _)⟩
      rcases explores.1 onward leads with waits | noted | within
      · rcases List.mem_cons.mp waits with rfl | waits
        · exact .inr (.inl List.mem_cons_self)
        · exact .inl waits
      · exact .inr (.inl (grows noted))
      · exact .inr (.inr within)
  | @passes slot target rest outer finished edges left =>
      refine ⟨descends, fun onward leads => ?_, explores.2⟩
      rcases explores.1 onward leads with waits | looked
      · rcases List.mem_cons.mp waits with rfl | waits
        · exact .inr (.inr left)
        · exact .inl waits
      · exact .inr looked
  | @enters slot target rest outer finished edges fresh =>
      have grows := List.subset_cons_self target finished
      refine ⟨descends, fun _ leads => .inl leads, fun onward leads => ?_,
        explores.2.mono (List.Subset.refl _) (List.cons_subset_cons _ grows)⟩
      rcases explores.1 onward leads with waits | noted | within
      · rcases List.mem_cons.mp waits with rfl | waits
        · exact .inr (.inr List.mem_cons_self)
        · exact .inl waits
      · exact .inr (.inl noted)
      · exact .inr (.inr (grows within))

/-- An edge out of a finished slot has been noted, or leads to a slot finished before it. -/
theorem Descends.leads
    {noted : List (Nat × Nat)} {slots : List Nat} {slot target : Nat}
    (descends : Descends code noted slots) (listed : slot ∈ slots)
    (edge : code.Edge slot target) : (slot, target) ∈ noted ∨ target ∈ slots := by
  induction slots with
  | nil => cases listed
  | cons first below continues =>
      rcases List.mem_cons.mp listed with rfl | listed
      · exact (descends.1 target edge).imp_right (List.mem_cons_of_mem _)
      · exact (continues descends.2 listed).imp_right (List.mem_cons_of_mem _)

/-- A route along edges that have not been noted stays among the slots. -/
theorem Descends.stays
    {noted : List (Nat × Nat)} {slots route : List Nat} {slot target : Nat}
    (descends : Descends code noted slots) (listed : slot ∈ slots)
    (goes : code.Route slot target route) (spared : ∀ hop ∈ Code.hops route, hop ∉ noted) :
    target ∈ slots := by
  induction goes with
  | here => exact listed
  | @along slot onward target rest edge route continues =>
      rw [route.hops_cons, List.forall_mem_cons] at spared
      exact continues ((descends.leads listed edge).resolve_left spared.1) spared.2

/-- A route from a slot back to it goes along an edge that has been noted. -/
theorem Descends.cuts
    {noted : List (Nat × Nat)} {slots route : List Nat} {slot target : Nat}
    (descends : Descends code noted slots) (distinct : slots.Nodup) (listed : slot ∈ slots)
    (edge : code.Edge slot target) (back : code.Route target slot route) :
    ∃ hop ∈ Code.hops (slot :: route), hop ∈ noted := by
  by_contra spared
  push Not at spared
  rw [back.hops_cons, List.forall_mem_cons] at spared
  induction slots with
  | nil => cases listed
  | cons first below continues =>
      rw [List.nodup_cons] at distinct
      rcases List.mem_cons.mp listed with rfl | listed
      · have within := (descends.1 target edge).resolve_left spared.1
        exact distinct.1 (descends.2.stays within back spared.2)
      · exact continues descends.2 distinct.2 listed

/-! ## Noted edges -/

/-- What the search keeps of its path and of the edges that it has noted. -/
structure Notes (code : Code) (search : Search) : Prop where
  chained : search.path.IsChain fun inner outer => code.Edge outer.1 inner.1
  once : ∀ entry ∈ search.path, entry.2.Nodup
  apart : search.backEdges.Nodup
  closes : ∀ edge ∈ search.backEdges, code.Edge edge.1 edge.2 ∧
    ∃ slots, code.Route edge.2 edge.1 slots ∧ slots.Nodup
  known : ∀ edge ∈ search.backEdges, edge.1 ∈ search.visited
  past : ∀ edge ∈ search.backEdges, ∀ entry ∈ search.path, entry.1 = edge.1 → edge.2 ∉ entry.2

theorem Notes.start (code : Code) : Notes code (start code) where
  chained := .singleton _
  once entry listed := by
    cases List.mem_singleton.mp listed
    exact Code.successors_nodup 0
  apart := List.nodup_nil
  closes edge noted := by cases noted
  known edge noted := by cases noted
  past edge noted := by cases noted

/-- The path leads from each of its slots to the innermost one. -/
theorem route_of_chain
    {entry : Nat × List Nat} {path : List (Nat × List Nat)} {slot : Nat}
    (chained : (entry :: path).IsChain fun inner outer => code.Edge outer.1 inner.1)
    (apart : ((entry :: path).map Prod.fst).Nodup)
    (onPath : slot ∈ (entry :: path).map Prod.fst) :
    ∃ slots, code.Route slot entry.1 slots ∧ slots.Nodup ∧
      slots ⊆ (entry :: path).map Prod.fst := by
  induction path generalizing entry with
  | nil =>
      cases List.mem_singleton.mp onPath
      exact ⟨[entry.1], .here _, List.nodup_singleton _, List.Subset.refl _⟩
  | cons outer rest continues =>
      rcases List.mem_cons.mp onPath with rfl | further
      · exact ⟨[entry.1], .here _, List.nodup_singleton _,
          List.cons_subset_cons _ (List.nil_subset _)⟩
      · rw [List.isChain_cons_cons] at chained
        rw [List.map_cons, List.nodup_cons] at apart
        rcases continues chained.2 apart.2 further with ⟨slots, route, distinct, within⟩
        refine ⟨slots ++ [entry.1], route.concat chained.1, ?_, fun place listed => ?_⟩
        · rw [List.nodup_append_comm, List.singleton_append, List.nodup_cons]
          exact ⟨fun listed => apart.1 (within listed), distinct⟩
        · rcases List.mem_append.mp listed with listed | last
          · exact List.mem_cons_of_mem _ (within listed)
          · cases List.mem_singleton.mp last
            exact List.mem_cons_self

section

variable {slot target : Nat} {rest finished : List Nat} {outer : List (Nat × List Nat)}
variable {edges : List (Nat × Nat)}

/-- A slot whose successors are done is finished, after everything that it leads to. -/
theorem Notes.leave (notes : Notes code ⟨(slot, []) :: outer, finished, edges⟩) :
    Notes code ⟨outer, slot :: finished, edges⟩ where
  chained := notes.chained.of_cons
  once entry listed := notes.once entry (List.mem_cons_of_mem _ listed)
  apart := notes.apart
  closes := notes.closes
  known edge noted := List.perm_middle.mem_iff.mpr (notes.known edge noted)
  past edge noted entry listed := notes.past edge noted entry (List.mem_cons_of_mem _ listed)

/-- One successor less waits at the innermost slot. -/
theorem Notes.look (notes : Notes code ⟨(slot, target :: rest) :: outer, finished, edges⟩) :
    Notes code ⟨(slot, rest) :: outer, finished, edges⟩ where
  chained := by
    have chained := notes.chained
    cases outer with
    | nil => exact .singleton _
    | cons => rwa [List.isChain_cons_cons] at chained ⊢
  once := List.forall_mem_cons.mpr
    ⟨(List.nodup_cons.mp (List.forall_mem_cons.mp notes.once).1).2,
      (List.forall_mem_cons.mp notes.once).2⟩
  apart := notes.apart
  closes := notes.closes
  known := notes.known
  past edge noted := by
    rcases List.forall_mem_cons.mp (notes.past edge noted) with ⟨here, further⟩
    exact List.forall_mem_cons.mpr
      ⟨fun same listed => here same (List.mem_cons_of_mem _ listed), further⟩

/-- The edge to a slot of the path closes a cycle and has not been noted before. -/
theorem Notes.close
    (notes : Notes code ⟨(slot, target :: rest) :: outer, finished, edges⟩)
    (sound : Sound code ⟨(slot, target :: rest) :: outer, finished, edges⟩)
    (onPath : target ∈ ((slot, target :: rest) :: outer).map Prod.fst) :
    Notes code ⟨(slot, rest) :: outer, finished, (slot, target) :: edges⟩ where
  chained := notes.look.chained
  once := notes.look.once
  apart := List.nodup_cons.mpr
    ⟨fun noted => notes.past _ noted _ List.mem_cons_self rfl List.mem_cons_self, notes.apart⟩
  closes := by
    have distinct := (List.nodup_append.mp sound.apart).1
    rcases route_of_chain notes.chained distinct onPath with ⟨slots, route, apart, _⟩
    exact List.forall_mem_cons.mpr
      ⟨⟨sound.waiting _ List.mem_cons_self _ List.mem_cons_self, slots, route, apart⟩,
        notes.closes⟩
  known := List.forall_mem_cons.mpr ⟨List.mem_cons_self, notes.known⟩
  past := by
    refine List.forall_mem_cons.mpr ⟨List.forall_mem_cons.mpr ⟨fun _ => ?_, ?_⟩, notes.look.past⟩
    · exact (List.nodup_cons.mp (notes.once _ List.mem_cons_self)).1
    · intro entry listed same
      have further : entry.1 ∈ outer.map Prod.fst := List.mem_map_of_mem listed
      rw [show entry.1 = slot from same] at further
      exact absurd (List.mem_append_left _ further) (List.nodup_cons.mp sound.apart).1

/-- A slot that has not been visited is put on the path, with all its successors to come. -/
theorem Notes.enter
    (notes : Notes code ⟨(slot, target :: rest) :: outer, finished, edges⟩)
    (sound : Sound code ⟨(slot, target :: rest) :: outer, finished, edges⟩)
    (fresh : target ∉ visited ⟨(slot, target :: rest) :: outer, finished, edges⟩) :
    Notes code ⟨(target, code.successors target) :: (slot, rest) :: outer, finished, edges⟩ where
  chained := List.isChain_cons_cons.mpr
    ⟨sound.waiting _ List.mem_cons_self _ List.mem_cons_self, notes.look.chained⟩
  once := List.forall_mem_cons.mpr ⟨Code.successors_nodup target, notes.look.once⟩
  apart := notes.apart
  closes := notes.closes
  known edge noted := List.mem_cons_of_mem _ (notes.known edge noted)
  past edge noted := by
    refine List.forall_mem_cons.mpr ⟨fun same => ?_, notes.look.past edge noted⟩
    rw [show target = edge.1 from same] at fresh
    exact absurd (notes.known edge noted) fresh

end

/-- What a search has noted stays right over every move. -/
theorem Notes.move
    (notes : Notes code search) (sound : Sound code search) (moves : Moves code search next) :
    Notes code next := by
  cases moves with
  | leaves => exact notes.leave
  | closes onPath => exact notes.close sound onPath
  | passes => exact notes.look
  | enters fresh => exact notes.enter sound fresh

/-- A run of the search keeps all of it. -/
theorem run_keeps
    (sound : Sound code search) (orders : Orders code search) (notes : Notes code search)
    (allowance : Nat) :
    Orders code (search.run code allowance) ∧ Notes code (search.run code allowance) := by
  induction allowance generalizing search with
  | zero => exact ⟨orders, notes⟩
  | succ allowance continues =>
      unfold run
      cases steps : search.step? code with
      | none => exact ⟨orders, notes⟩
      | some next =>
          have moves := moves_of_step? steps
          exact continues (sound.advance moves.advances) (orders.move moves)
            (notes.move sound moves)

/-- What the search of a whole program has found when it comes to its end. -/
theorem ofCode_keeps (nonempty : 0 < code.size) :
    Orders code (ofCode code) ∧ Notes code (ofCode code) := by
  rw [ofCode_eq nonempty]
  exact run_keeps (Sound.start nonempty) (Orders.start code) (Notes.start code) _

/-- The search is over once it has come back from the first slot. -/
theorem step?_ofCode (nonempty : 0 < code.size) : (ofCode code).step? code = none := by
  have ended := (ofCode_finishes nonempty).2
  rw [step?, ended]

end Search

/-! ## Back edges of a graph -/

namespace Graph

variable {code : Code} {slots : List Nat} {edge : Nat × Nat}

theorem mem_backEdges_iff : edge ∈ (ofCode code).backEdges ↔
    edge ∈ (Search.ofCode code).backEdges :=
  List.mem_reverse

/-- Every cycle among reachable slots has a hop that the search noted as leading back. -/
theorem exists_backEdge_of_cycle (nonempty : 0 < code.size) (cycle : code.Cycle slots) :
    ∃ hop ∈ Code.hops slots, hop ∈ (ofCode code).backEdges := by
  rcases cycle with @⟨slot, target, slots, reached, edge, back⟩
  have listed := (Search.mem_finished_ofCode_iff nonempty).mpr reached
  have distinct := (List.nodup_append.mp (Search.ofCode_finishes nonempty).1.apart).2.1
  have descends := (Search.ofCode_keeps nonempty).1.descends
  simpa only [mem_backEdges_iff] using descends.cuts distinct listed edge back

/-- A back edge comes from a reachable slot and leads to one from which a way without repetitions
leads back. -/
theorem route_of_backEdge (nonempty : 0 < code.size) (noted : edge ∈ (ofCode code).backEdges) :
    Relation.ReflTransGen code.Edge 0 edge.1 ∧ code.Edge edge.1 edge.2 ∧
      ∃ slots, code.Route edge.2 edge.1 slots ∧ slots.Nodup := by
  rw [mem_backEdges_iff] at noted
  have notes := (Search.ofCode_keeps nonempty).2
  exact ⟨(Search.ofCode_finishes nonempty).1.rooted _ (notes.known edge noted),
    notes.closes edge noted⟩

/-- A back edge closes a cycle that comes by no slot twice. -/
theorem exists_cycle_of_backEdge (nonempty : 0 < code.size)
    (noted : edge ∈ (ofCode code).backEdges) :
    ∃ slots, code.Cycle slots ∧ slots.tail.Nodup ∧ edge ∈ Code.hops slots := by
  rcases route_of_backEdge nonempty noted with ⟨reached, leads, slots, back, distinct⟩
  refine ⟨edge.1 :: slots, .closes reached leads back, distinct, ?_⟩
  rw [back.hops_cons]
  exact List.mem_cons_self

/--
Of every program that is not empty, well formed or not, the search for back
edges comes to its end.  It reaches the slots to which control can pass from the
first one, and no others.  Every cycle of reachable slots goes along a back edge,
every back edge lies on such a cycle, on one that comes by no other slot twice,
and none is listed twice; so a graph has loops exactly when there is a cycle.
-/
theorem backEdges_cut_cycles (code : Code) (nonempty : code ≠ #[]) :
    (Search.ofCode code).step? code = none ∧
      (∀ slot, slot ∈ (ofCode code).reachable ↔ Relation.ReflTransGen code.Edge 0 slot) ∧
      (∀ slots, code.Cycle slots → ∃ hop ∈ Code.hops slots, hop ∈ (ofCode code).backEdges) ∧
      (∀ edge ∈ (ofCode code).backEdges,
        ∃ slots, code.Cycle slots ∧ slots.tail.Nodup ∧ edge ∈ Code.hops slots) ∧
      (ofCode code).backEdges.Nodup ∧
      ((ofCode code).hasLoops = true ↔ ∃ slots, code.Cycle slots) := by
  have filled : 0 < code.size := Array.size_pos_iff.mpr nonempty
  refine ⟨Search.step?_ofCode filled, fun slot => mem_reachable_iff filled,
    fun slots => exists_backEdge_of_cycle filled, fun edge => exists_cycle_of_backEdge filled,
    List.nodup_reverse.mpr (Search.ofCode_keeps filled).2.apart, ?_⟩
  rw [hasLoops, Bool.not_eq_true', List.isEmpty_eq_false_iff_exists_mem]
  constructor
  · rintro ⟨edge, noted⟩
    rcases exists_cycle_of_backEdge filled noted with ⟨slots, cycle, _⟩
    exact ⟨slots, cycle⟩
  · rintro ⟨slots, cycle⟩
    rcases exists_backEdge_of_cycle filled cycle with ⟨hop, _, noted⟩
    exact ⟨hop, noted⟩

/-- Two slots that jump to one another, and a branch before them that leads to either. -/
def tangledCode : Code :=
  #[⟨0x15, 1, 0, 1, 0⟩, ⟨0x05, 0, 0, 0, 0⟩, ⟨0x05, 0, 0, -2, 0⟩]

/-- No slot of the cycle is passed on every way into it, and its one back edge cuts it all the
same. -/
theorem backEdges_cut_cycles_tangled :
    tangledCode ≠ #[] ∧ (ofCode tangledCode).backEdges = [(2, 1)] ∧
      (∃ slots, tangledCode.Cycle slots) ∧
      ∀ slots, tangledCode.Cycle slots → (2, 1) ∈ Code.hops slots := by
  have nonempty : tangledCode ≠ #[] := by decide
  have noted : (ofCode tangledCode).backEdges = [(2, 1)] := by decide +kernel
  rcases backEdges_cut_cycles tangledCode nonempty with ⟨_, _, cut, _, _, loops⟩
  refine ⟨nonempty, noted, loops.mp ?_, fun slots cycle => ?_⟩
  · rw [hasLoops, noted]
    rfl
  · rcases cut slots cycle with ⟨hop, listed, isBack⟩
    rw [noted, List.mem_singleton] at isBack
    rwa [isBack] at listed

end Graph

end PacketFilter
