import Mathlib.Algebra.BigOperators.Group.Finset.Piecewise
import Mathlib.Algebra.Order.BigOperators.Group.Finset
import PacketFilter.Proofs.BackEdges

/-!
# Predecessors

Predecessor lists are collected in one pass over what leads anywhere, each item
put in front of the list of everything that it leads to.  What is collected at
a slot is, in order, whatever leads there.
-/

namespace PacketFilter

/-! ## Collecting -/

section

variable {α : Type} (targets : α → List Nat) (name : α → Nat)

theorem getElem?_collect_one
    (source : Nat) {slots : List Nat} (distinct : slots.Nodup) (lists : Array (List Nat))
    (slot : Nat) :
    (slots.foldl (fun lists slot => lists.modify slot (source :: ·)) lists)[slot]? =
      lists[slot]?.map fun sources => if slot ∈ slots then source :: sources else sources := by
  induction slots generalizing lists with
  | nil => simp
  | cons first rest continues =>
      rw [List.nodup_cons] at distinct
      rw [List.foldl_cons, continues distinct.2, Array.getElem?_modify]
      by_cases here : first = slot
      · subst here
        simp only [if_pos, if_neg distinct.1, List.mem_cons_self, Option.map_map]
        rfl
      · have other : slot ∈ first :: rest ↔ slot ∈ rest := by
          rw [List.mem_cons, or_iff_right (Ne.symm here)]
        simp only [if_neg here, other]

/-- Whatever leads to the slot, in the order in which it is listed. -/
theorem getElem?_collect
    (items : List α) (distinct : ∀ item ∈ items, (targets item).Nodup) (length slot : Nat) :
    (items.foldr
      (fun item lists =>
        (targets item).foldl (fun lists slot => lists.modify slot (name item :: ·)) lists)
      (Array.replicate length []))[slot]? =
      if slot < length then some ((items.filter fun item => slot ∈ targets item).map name)
      else none := by
  induction items with
  | nil => rw [List.foldr_nil, Array.getElem?_replicate, List.filter_nil, List.map_nil]
  | cons item rest continues =>
      rw [List.forall_mem_cons] at distinct
      rw [List.foldr_cons, getElem?_collect_one _ distinct.1, continues distinct.2,
        List.filter_cons]
      by_cases inside : slot < length
      · by_cases leads : slot ∈ targets item
        · simp only [if_pos inside, Option.map_some, leads, if_true, decide_true, List.map_cons]
        · simp only [if_pos inside, Option.map_some, leads, if_false, decide_false,
            Bool.false_eq_true]
      · simp only [if_neg inside, Option.map_none]

/-- No more is collected than there are ways to go. -/
theorem sum_length_collected (items : List α) {most : Nat}
    (few : ∀ item ∈ items, (targets item).length ≤ most) (length : Nat) :
    ∑ slot ∈ Finset.range length, (items.filter fun item => slot ∈ targets item).length ≤
      most * items.length := by
  induction items with
  | nil => simp
  | cons item rest continues =>
      rw [List.forall_mem_cons] at few
      have here : ∑ slot ∈ Finset.range length, (if slot ∈ targets item then 1 else 0) ≤ most := by
        rw [← Finset.card_filter]
        have within : (Finset.range length).filter (fun slot => slot ∈ targets item) ⊆
            (targets item).toFinset := by
          intro slot listed
          exact List.mem_toFinset.mpr (Finset.mem_filter.mp listed).2
        exact (Finset.card_le_card within).trans
          ((targets item).toFinset_card_le.trans few.1)
      have split (slot : Nat) : ((item :: rest).filter fun item => slot ∈ targets item).length =
          (if slot ∈ targets item then 1 else 0) +
            (rest.filter fun item => slot ∈ targets item).length := by
        rw [List.filter_cons]
        by_cases leads : slot ∈ targets item
        · simp only [leads, decide_true, if_true, List.length_cons, Nat.add_comm]
        · simp only [leads, decide_false, Bool.false_eq_true, if_false, Nat.zero_add]
      simp only [split, Finset.sum_add_distrib]
      have later := continues few.2
      rw [List.length_cons, Nat.mul_succ]
      omega

end

namespace Code

variable {code : Code} {slot position : Nat}

/-- The predecessors of a slot are the instructions that have it among their successors. -/
theorem predecessors_eq (code : Code) (slot : Nat) :
    code.predecessors[slot]?.getD [] =
      code.starts.filter fun position => slot ∈ code.successors position := by
  have collected := getElem?_collect code.successors id code.starts
    (fun position _ => successors_nodup position) code.size slot
  rw [List.map_id] at collected
  rw [show code.predecessors[slot]? = _ from collected]
  split
  case isTrue => rfl
  case isFalse outside =>
    refine (List.filter_eq_nil_iff.mpr fun position _ leads => ?_).symm
    exact outside ((successors_bounded position).2 slot (of_decide_eq_true leads))

theorem mem_predecessors_iff :
    position ∈ code.predecessors[slot]?.getD [] ↔
      position ∈ code.starts ∧ code.Edge position slot := by
  rw [predecessors_eq, List.mem_filter, decide_eq_true_eq]
  rfl

theorem startsFrom_pairwise (code : Code) (position : Nat) :
    (code.startsFrom position).Pairwise (· < ·) := by
  induction position using startsFrom.induct code with
  | case1 position inside continues =>
      rw [startsFrom_of_lt inside]
      refine List.Pairwise.cons (fun slot listed => ?_) continues
      have after := le_of_mem_startsFrom listed
      have moves := code[position].span_pos
      omega
  | case2 position past =>
      rw [startsFrom_of_le (Nat.not_lt.mp past)]
      exact List.Pairwise.nil

theorem length_starts_le (code : Code) : code.starts.length ≤ code.size := by
  have distinct : code.starts.Nodup :=
    (startsFrom_pairwise code 0).imp fun less => Nat.ne_of_lt less
  have within : code.starts ⊆ List.range code.size :=
    fun slot listed => List.mem_range.mpr (lt_of_mem_startsFrom listed)
  have few := distinct.length_le_of_subset within
  rwa [List.length_range] at few

/-- There are at most two edges for every slot. -/
theorem sum_length_predecessors_le (code : Code) :
    ∑ slot ∈ Finset.range code.size, (code.predecessors[slot]?.getD []).length ≤
      2 * code.size := by
  simp only [predecessors_eq]
  exact (sum_length_collected code.successors code.starts
    (fun position _ => (successors_bounded position).1) code.size).trans
      (Nat.mul_le_mul_left 2 code.length_starts_le)

end Code

end PacketFilter
