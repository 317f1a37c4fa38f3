import PacketFilter.ControlFlow.Loop
import PacketFilter.Proofs.ControlSafety
import PacketFilter.Proofs.Predecessors

/-!
# Loop bodies

Two searches with a list of slots still to be handled and marks for those that
have been.  The one goes backwards from the latch of a back edge and collects
the body of its loop: the header, and every reachable slot from which control
comes to the latch without passing the header.  The other goes forwards from
the header and finds no way to the latch only when every way inside the body
passes one of the slots that it avoids.

Every slot is handled once, and what it adds to the list are its neighbours; so
the work that remains can be counted, and the allowance is enough for it.
-/

namespace PacketFilter

namespace Graph

variable {seen : Array Bool} {slot other : Nat}

/-! ## Marks and work -/

/-- The slot has a mark. -/
def IsMarked (seen : Array Bool) (slot : Nat) : Prop :=
  seen[slot]?.getD false = true

theorem mem_marked_iff : slot ∈ marked seen ↔ IsMarked seen slot := by
  rw [marked, List.mem_filter, List.mem_range, IsMarked]
  refine and_iff_right_of_imp fun known => ?_
  by_contra outside
  rw [Array.getElem?_eq_none (Nat.not_lt.mp outside)] at known
  cases known

theorem isMarked_marks_iff {length : Nat} {slots : List Nat} :
    IsMarked (marks length slots) slot ↔ slot ∈ slots ∧ slot < length :=
  marks_iff slots

theorem size_marks {length : Nat} {slots : List Nat} : (marks length slots).size = length := by
  have kept (marked : Array Bool) :
      (slots.foldl (fun marks slot => marks.setIfInBounds slot true) marked).size =
        marked.size := by
    induction slots generalizing marked with
    | nil => rfl
    | cons slot rest continues =>
        rw [List.foldl_cons, continues, Array.size_setIfInBounds]
  rw [marks, kept, Array.size_replicate]

theorem isMarked_mark_iff :
    IsMarked (seen.setIfInBounds other true) slot ↔
      IsMarked seen slot ∨ slot = other ∧ other < seen.size := by
  have marked := @mark_iff slot [other] seen
  rw [List.mem_singleton] at marked
  refine marked.trans (or_congr_right ?_)
  exact and_congr_right fun same => by rw [same]

/-- A slot is handled unless it is marked; slots outside of the program count as marked. -/
theorem isMarked_iff_of_lt (inside : slot < seen.size) :
    IsMarked seen slot ↔ seen[slot]?.getD true = true := by
  rw [IsMarked, Array.getElem?_eq_getElem inside]
  rfl

theorem lt_of_unmarked (unmarked : ¬ seen[slot]?.getD true = true) : slot < seen.size := by
  by_contra outside
  rw [Array.getElem?_eq_none (Nat.not_lt.mp outside)] at unmarked
  exact unmarked rfl

/-- The slot is marked or still to be handled. -/
def IsKnown (seen : Array Bool) (work : List Nat) (slot : Nat) : Prop :=
  IsMarked seen slot ∨ slot ∈ work

theorem IsKnown.drop
    {work : List Nat} (known : IsKnown seen (slot :: work) other) (marked : IsMarked seen slot) :
    IsKnown seen work other := by
  rcases known with here | listed
  · exact .inl here
  · rcases List.mem_cons.mp listed with rfl | later
    · exact .inl marked
    · exact .inr later

/-- What is known stays so when a slot is marked and replaced by others. -/
theorem IsKnown.replace
    {work : List Nat} (known : IsKnown seen (slot :: work) other) (inside : slot < seen.size)
    (next : List Nat) : IsKnown (seen.setIfInBounds slot true) (next ++ work) other := by
  rw [IsKnown, isMarked_mark_iff, List.mem_append]
  rcases known with here | listed
  · exact .inl (.inl here)
  · rcases List.mem_cons.mp listed with rfl | later
    · exact .inl (.inr ⟨rfl, inside⟩)
    · exact .inr (.inr later)

/-- How much a search can still do: one step for every slot in its list, and one for every neighbour
of a slot that is not marked. -/
def pending (neighbours : Nat → List Nat) (seen : Array Bool) (work : List Nat) : Nat :=
  work.length +
    ∑ slot ∈ Finset.range seen.size with ¬ seen[slot]?.getD true = true, (neighbours slot).length

/-- A slot that is marked and replaced by its neighbours takes a step off. -/
theorem pending_mark
    (neighbours : Nat → List Nat) (work : List Nat) {next : List Nat}
    (unmarked : ¬ seen[slot]?.getD true = true) (few : next.length ≤ (neighbours slot).length) :
    pending neighbours (seen.setIfInBounds slot true) (next ++ work) <
      pending neighbours seen (slot :: work) := by
  have inside := lt_of_unmarked unmarked
  have less : (Finset.range (seen.setIfInBounds slot true).size).filter
      (fun other => ¬ (seen.setIfInBounds slot true)[other]?.getD true = true) =
      ((Finset.range seen.size).filter fun other => ¬ seen[other]?.getD true = true).erase
        slot := by
    ext other
    rw [Array.size_setIfInBounds, Finset.mem_erase, Finset.mem_filter, Finset.mem_filter,
      Array.getElem?_setIfInBounds]
    by_cases same : slot = other
    · subst same
      simp [inside]
    · simp [same, Ne.symm same]
  have listed : slot ∈ (Finset.range seen.size).filter
      fun other => ¬ seen[other]?.getD true = true :=
    Finset.mem_filter.mpr ⟨Finset.mem_range.mpr inside, unmarked⟩
  have sum := Finset.add_sum_erase _ (fun other => (neighbours other).length) listed
  rw [pending, pending, less, List.length_append, List.length_cons, ← sum]
  omega

theorem pending_le (neighbours : Nat → List Nat) (seen : Array Bool) (work : List Nat) :
    pending neighbours seen work ≤
      work.length + ∑ slot ∈ Finset.range seen.size, (neighbours slot).length :=
  Nat.add_le_add_left (Finset.sum_le_sum_of_subset (Finset.filter_subset _ _)) _

end Graph

/-! ## The body of a loop -/

namespace Code

/-- Control can come from the slot to the latch without passing the header. -/
def LeadsBack (code : Code) (header latch slot : Nat) : Prop :=
  ∃ slots, code.Route slot latch slots ∧ header ∉ slots

/-- The slot belongs to the loop that the edge from the latch to the header closes. -/
def Loops (code : Code) (header latch slot : Nat) : Prop :=
  slot = header ∨ Relation.ReflTransGen code.Edge 0 slot ∧ code.LeadsBack header latch slot

variable {code : Code} {header latch slot source : Nat}

/-- Whatever leads to a slot of the loop other than its header belongs to the loop too. -/
theorem Loops.of_edge
    (loops : code.Loops header latch slot) (inner : slot ≠ header)
    (reached : Relation.ReflTransGen code.Edge 0 source) (edge : code.Edge source slot) :
    code.Loops header latch source := by
  by_cases first : source = header
  · exact .inl first
  · rcases loops.resolve_left inner with ⟨_, slots, route, avoids⟩
    exact .inr ⟨reached, source :: slots, .along edge route,
      List.not_mem_cons_of_ne_of_not_mem (Ne.symm first) avoids⟩

end Code

namespace Graph

variable {code : Code} {header latch slot : Nat} {work : List Nat} {seen : Array Bool}

/-- What the search for the body of a loop keeps of its list and of its marks. -/
structure Gathers (code : Code) (header latch : Nat) (work : List Nat) (seen : Array Bool) :
    Prop where
  sized : seen.size = code.size
  first : IsMarked seen header
  last : IsKnown seen work latch
  /-- Nothing is marked or listed that does not belong to the loop. -/
  within : ∀ slot, IsKnown seen work slot → code.Loops header latch slot
  /-- What leads to a slot that was handled is marked or listed. -/
  closed : ∀ slot, IsMarked seen slot → slot ≠ header → ∀ source,
    Relation.ReflTransGen code.Edge 0 source → code.Edge source slot → IsKnown seen work source

theorem lt_of_isMarked (known : IsMarked seen slot) : slot < seen.size := by
  by_contra outside
  rw [IsMarked, Array.getElem?_eq_none (Nat.not_lt.mp outside)] at known
  cases known

/-- What leads to a slot, as the search backwards lists it. -/
def sources (code : Code) (slot : Nat) : List Nat :=
  (code.predecessors[slot]?.getD []).filter fun source =>
    (marks code.size (ofCode code).reachable)[source]?.getD false

theorem mem_sources_iff (wellFormed : code.WellFormed) {source : Nat} :
    source ∈ sources code slot ↔
      Relation.ReflTransGen code.Edge 0 source ∧ code.Edge source slot := by
  have reached := @isMarked_marks_iff source code.size (ofCode code).reachable
  rw [mem_reachable_iff wellFormed.nonempty] at reached
  rw [sources, List.mem_filter, Code.mem_predecessors_iff]
  constructor
  · rintro ⟨⟨_, edge⟩, known⟩
    exact ⟨(reached.mp known).1, edge⟩
  · rintro ⟨begins, edge⟩
    have starts := wellFormed.starts_of_reachable begins
    exact ⟨⟨starts, edge⟩, reached.mpr ⟨begins, Code.lt_of_mem_startsFrom starts⟩⟩

theorem Gathers.lt_size
    (wellFormed : code.WellFormed) (gathers : Gathers code header latch work seen)
    (listed : slot ∈ work) : slot < seen.size := by
  rcases gathers.within slot (.inr listed) with rfl | ⟨reached, _⟩
  · exact lt_of_isMarked gathers.first
  · rw [gathers.sized]
    exact Code.lt_of_mem_startsFrom (wellFormed.starts_of_reachable reached)

theorem Gathers.skip
    (gathers : Gathers code header latch (slot :: work) seen) (known : IsMarked seen slot) :
    Gathers code header latch work seen := by
  exact ⟨gathers.sized, gathers.first, gathers.last.drop known,
    fun other either => gathers.within other (either.imp_right (List.mem_cons_of_mem slot)),
    fun other here inner source reached edge =>
      (gathers.closed other here inner source reached edge).drop known⟩

theorem Gathers.mark
    (wellFormed : code.WellFormed) (gathers : Gathers code header latch (slot :: work) seen)
    (unknown : ¬ IsMarked seen slot) :
    Gathers code header latch (sources code slot ++ work) (seen.setIfInBounds slot true) := by
  have inside := gathers.lt_size wellFormed List.mem_cons_self
  have inner : slot ≠ header := fun same => unknown (same ▸ gathers.first)
  have loops := gathers.within slot (.inr List.mem_cons_self)
  refine ⟨by rw [Array.size_setIfInBounds, gathers.sized],
    isMarked_mark_iff.mpr (.inl gathers.first), gathers.last.replace inside _,
    fun other either => ?_, fun other here inner source reached edge => ?_⟩
  · rw [IsKnown, isMarked_mark_iff, List.mem_append] at either
    rcases either with (here | ⟨rfl, _⟩) | leads | listed
    · exact gathers.within other (.inl here)
    · exact loops
    · rcases (mem_sources_iff wellFormed).mp leads with ⟨reached, edge⟩
      exact loops.of_edge inner reached edge
    · exact gathers.within other (.inr (List.mem_cons_of_mem slot listed))
  · rcases isMarked_mark_iff.mp here with before | ⟨rfl, _⟩
    · exact (gathers.closed other before inner source reached edge).replace inside _
    · exact .inr (List.mem_append_left _ ((mem_sources_iff wellFormed).mpr ⟨reached, edge⟩))

/-- With an allowance for what it can still do, the search goes on until its list is empty. -/
theorem Gathers.collect
    (wellFormed : code.WellFormed) (gathers : Gathers code header latch work seen)
    {allowance : Nat}
    (enough : pending (fun slot => code.predecessors[slot]?.getD []) seen work ≤ allowance) :
    Gathers code header latch []
      (collectBackwards code.predecessors (marks code.size (ofCode code).reachable) allowance work
        seen) := by
  induction allowance generalizing work seen with
  | zero =>
      have none : work = [] := List.length_eq_zero_iff.mp (by rw [pending] at enough; omega)
      subst none
      exact gathers
  | succ allowance continues =>
      cases work with
      | nil => exact gathers
      | cons slot work =>
          have inside := gathers.lt_size wellFormed List.mem_cons_self
          rw [collectBackwards]
          split
          case isTrue known =>
            refine continues (gathers.skip ((isMarked_iff_of_lt inside).mpr known)) ?_
            rw [pending, List.length_cons] at enough
            rw [pending]
            omega
          case isFalse unknown =>
            have new := mt (isMarked_iff_of_lt inside).mp unknown
            refine continues (gathers.mark wellFormed new) ?_
            have less := pending_mark (fun slot => code.predecessors[slot]?.getD []) work unknown
              (List.length_filter_le _ _ : (sources code slot).length ≤ _)
            exact Nat.le_of_lt_succ (Nat.lt_of_lt_of_le less enough)

/-- When nothing is left to do, whatever belongs to the loop is marked. -/
theorem Gathers.isMarked_iff (gathers : Gathers code header latch [] seen) :
    IsMarked seen slot ↔ code.Loops header latch slot := by
  refine ⟨fun known => gathers.within slot (.inl known), ?_⟩
  rintro (rfl | ⟨reached, slots, route, avoids⟩)
  · exact gathers.first
  · induction route with
    | here => exact gathers.last.resolve_right List.not_mem_nil
    | @along slot next latch slots edge onward continues =>
        have past : header ∉ slots := fun later => avoids (List.mem_cons_of_mem slot later)
        have known := continues gathers (reached.tail edge) past
        have inner : next ≠ header := fun same => past (same ▸ onward.first_mem)
        exact (gathers.closed next known inner slot reached edge).resolve_right List.not_mem_nil

/-- The natural loop of an edge that goes back to its header has in it the slots that belong to the
loop, and no others. -/
theorem mem_naturalLoop_iff
    (wellFormed : code.WellFormed) (reached : Relation.ReflTransGen code.Edge 0 latch)
    (edge : code.Edge latch header) :
    slot ∈ (ofCode code).naturalLoop code latch header ↔ code.Loops header latch slot := by
  have inside := (Code.successors_bounded latch).2 header edge
  have sized : (marks code.size [header]).size = code.size := size_marks
  have only {other : Nat} : IsMarked (marks code.size [header]) other ↔ other = header := by
    rw [isMarked_marks_iff, List.mem_singleton]
    exact and_iff_left_of_imp fun same => same ▸ inside
  have begins : Gathers code header latch [latch] (marks code.size [header]) := by
    refine ⟨sized, only.mpr rfl, .inr (List.mem_singleton_self latch), fun other either => ?_,
      fun other known inner => absurd (only.mp known) inner⟩
    rw [IsKnown, only, List.mem_singleton] at either
    rcases either with first | rfl
    · exact .inl first
    · refine or_iff_not_imp_left.mpr fun inner => ⟨reached, [other], .here other, ?_⟩
      exact fun among => inner (List.mem_singleton.mp among).symm
  have enough := pending_le (fun slot => code.predecessors[slot]?.getD [])
    (marks code.size [header]) [latch]
  have few := code.sum_length_predecessors_le
  rw [sized, List.length_singleton] at enough
  rw [naturalLoop, mem_marked_iff]
  exact (begins.collect wellFormed (by omega)).isMarked_iff

end Graph

/-! ## Ways round a loop -/

namespace Code

variable {code : Code} {body sites : List Nat} {start goal slot : Nat} {work : List Nat}
variable {avoided : Array Bool}

/-- What the search for a way to the goal keeps of its list and of its marks, as long as it has not
come to the goal. -/
structure Misses (code : Code) (body sites : List Nat) (start goal : Nat) (work : List Nat)
    (avoided : Array Bool) : Prop where
  sized : avoided.size = code.size
  inside : ∀ slot ∈ work, slot < code.size
  first : Graph.IsKnown avoided work start
  /-- From a slot that was handled control goes to slots that are marked or listed. -/
  closed : ∀ slot, Graph.IsMarked avoided slot → slot ∈ sites ∨ slot ≠ goal ∧ ∀ target,
    code.Edge slot target → target ∈ body → target ≠ start → Graph.IsKnown avoided work target

/-- Where control goes on from a slot, as the search forwards lists it. -/
def onwardIn (code : Code) (body : List Nat) (start slot : Nat) : List Nat :=
  (code.successors slot).filter fun target =>
    ((Graph.marks code.size body)[target]?.getD false) && target != start

theorem mem_onwardIn_iff {target : Nat} :
    target ∈ code.onwardIn body start slot ↔
      code.Edge slot target ∧ target ∈ body ∧ target ≠ start := by
  rw [onwardIn, List.mem_filter, Bool.and_eq_true, bne_iff_ne]
  refine and_congr_right fun edge => and_congr_left fun _ => ?_
  refine Graph.isMarked_marks_iff.trans (and_iff_left ?_)
  exact (successors_bounded slot).2 target edge

theorem Misses.skip
    (misses : code.Misses body sites start goal (slot :: work) avoided)
    (known : Graph.IsMarked avoided slot) : code.Misses body sites start goal work avoided := by
  refine ⟨misses.sized, fun other listed => misses.inside other (List.mem_cons_of_mem slot listed),
    misses.first.drop known, fun other here => ?_⟩
  refine (misses.closed other here).imp_right fun ⟨inner, leads⟩ => ⟨inner, ?_⟩
  exact fun target edge within apart => (leads target edge within apart).drop known

theorem Misses.mark
    (misses : code.Misses body sites start goal (slot :: work) avoided) (inner : slot ≠ goal) :
    code.Misses body sites start goal (code.onwardIn body start slot ++ work)
      (avoided.setIfInBounds slot true) := by
  have inside : slot < avoided.size := misses.sized ▸ misses.inside slot List.mem_cons_self
  refine ⟨by rw [Array.size_setIfInBounds, misses.sized], fun other listed => ?_,
    misses.first.replace inside _, fun other here => ?_⟩
  · rcases List.mem_append.mp listed with leads | later
    · exact (successors_bounded slot).2 other (mem_onwardIn_iff.mp leads).1
    · exact misses.inside other (List.mem_cons_of_mem slot later)
  · rcases Graph.isMarked_mark_iff.mp here with before | ⟨rfl, _⟩
    · refine (misses.closed other before).imp_right fun ⟨inner, leads⟩ => ⟨inner, ?_⟩
      exact fun target edge within apart => (leads target edge within apart).replace inside _
    · refine .inr ⟨inner, fun target edge within apart => .inr (List.mem_append_left _ ?_)⟩
      exact mem_onwardIn_iff.mpr ⟨edge, within, apart⟩

/-- A search that comes to its end without having found the goal has handled all it could. -/
theorem Misses.exists_of_reachesAvoiding
    (misses : code.Misses body sites start goal work avoided) {allowance : Nat}
    (enough : Graph.pending code.successors avoided work ≤ allowance)
    (never : code.reachesAvoiding (Graph.marks code.size body) start goal allowance work avoided =
      false) :
    ∃ handled, code.Misses body sites start goal [] handled := by
  induction allowance generalizing work avoided with
  | zero =>
      have none : work = [] := List.length_eq_zero_iff.mp (by rw [Graph.pending] at enough; omega)
      subst none
      exact ⟨avoided, misses⟩
  | succ allowance continues =>
      cases work with
      | nil => exact ⟨avoided, misses⟩
      | cons slot work =>
          have inside : slot < avoided.size :=
            misses.sized ▸ misses.inside slot List.mem_cons_self
          rw [reachesAvoiding] at never
          split at never
          case isTrue known =>
            refine continues (misses.skip ((Graph.isMarked_iff_of_lt inside).mpr known)) ?_ never
            rw [Graph.pending, List.length_cons] at enough
            rw [Graph.pending]
            omega
          case isFalse unknown =>
            split at never
            case isTrue => cases never
            case isFalse inner =>
              refine continues (misses.mark inner) ?_ never
              have less := Graph.pending_mark code.successors work unknown
                (List.length_filter_le _ _ : (code.onwardIn body start slot).length ≤ _)
              exact Nat.le_of_lt_succ (Nat.lt_of_lt_of_le less enough)

/-- When all has been handled, a route to the goal inside the body passes one of the sites. -/
theorem Misses.exists_site
    (misses : code.Misses body sites start goal [] avoided) (known : Graph.IsMarked avoided slot)
    {slots : List Nat} (route : code.Route slot goal slots) (within : ∀ slot ∈ slots, slot ∈ body)
    (once : start ∉ slots.tail) : ∃ site ∈ sites, site ∈ slots := by
  induction route with
  | here slot =>
      rcases misses.closed slot known with site | ⟨inner, _⟩
      · exact ⟨slot, site, List.mem_singleton_self slot⟩
      · exact absurd rfl inner
  | @along slot next goal slots edge onward continues =>
      rcases misses.closed slot known with site | ⟨_, leads⟩
      · exact ⟨slot, site, List.mem_cons_self⟩
      · have later : ∀ slot ∈ slots, slot ∈ body :=
          fun slot listed => within slot (List.mem_cons_of_mem _ listed)
        have apart : next ≠ start := fun same => once (same ▸ onward.first_mem)
        have marked := (leads next edge (later next onward.first_mem) apart).resolve_right
          List.not_mem_nil
        rcases continues misses marked later (fun again => once (List.mem_of_mem_tail again)) with
          ⟨site, among, passed⟩
        exact ⟨site, among, List.mem_cons_of_mem _ passed⟩

/-- When there is no way round the sites, every route from the header to the latch inside the body
passes one of them before it comes by the header again. -/
theorem exists_site_of_hasWayAround
    {header latch : Nat} (inside : header < code.size)
    (closed : code.hasWayAround body sites header latch = false)
    {slots : List Nat} (route : code.Route header latch slots)
    (within : ∀ slot ∈ slots, slot ∈ body) (once : header ∉ slots.tail) :
    ∃ site ∈ sites, site ∈ slots := by
  have sized : (Graph.marks code.size sites).size = code.size := Graph.size_marks
  have begins : code.Misses body sites header latch [header] (Graph.marks code.size sites) :=
    ⟨sized, fun slot listed => List.mem_singleton.mp listed ▸ inside,
      .inr (List.mem_singleton_self header),
      fun slot known => .inl (Graph.isMarked_marks_iff.mp known).1⟩
  have enough := Graph.pending_le code.successors (Graph.marks code.size sites) [header]
  have few : ∑ slot ∈ Finset.range code.size, (code.successors slot).length ≤ 2 * code.size := by
    refine (Finset.sum_le_sum fun slot _ => (successors_bounded slot).1).trans_eq ?_
    rw [Finset.sum_const, Finset.card_range, Nat.nsmul_eq_mul, Nat.mul_comm]
  rw [sized, List.length_singleton] at enough
  rcases begins.exists_of_reachesAvoiding (by omega) closed with ⟨handled, misses⟩
  exact misses.exists_site (misses.first.resolve_right List.not_mem_nil) route within once

end Code

end PacketFilter
