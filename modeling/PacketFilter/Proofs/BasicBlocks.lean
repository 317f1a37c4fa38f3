import PacketFilter.Proofs.ControlSafety
import PacketFilter.Proofs.Predecessors

/-!
# Basic blocks

The blocks of a program that passed the structural checks cut it into straight
runs of instructions.  Blocks begin at leaders: the first slot, the targets of
jumps and whatever follows a jump or an exit.  A block ends with the last
instruction before the next leader; control can go on from there to leaders
only, and from any instruction before the end only to the next one.
-/

namespace PacketFilter

namespace Code

variable {code : Code} {slot target position : Nat} {instruction : Instruction}

/-! ## Leaders -/

/-- A leader is the first slot or one that some instruction leads to out of order. -/
theorem mem_leaders_iff :
    slot ∈ code.leaders ↔
      slot < code.size ∧ (slot = 0 ∨ ∃ position ∈ code.starts, slot ∈ code.leadersAt position) := by
  have marking (positions : List Nat) (marks : Array Bool) (sized : marks.size = code.size) :
      (positions.foldl
        (fun marks position =>
          (code.leadersAt position).foldl (fun marks slot => marks.setIfInBounds slot true) marks)
        marks)[slot]?.getD false = true ↔
        marks[slot]?.getD false = true ∨
          slot < code.size ∧ ∃ position ∈ positions, slot ∈ code.leadersAt position := by
    rw [← List.foldl_flatMap, Graph.mark_iff, sized, List.mem_flatMap, and_comm]
  have first : ((Array.replicate code.size false).setIfInBounds 0 true)[slot]?.getD false = true ↔
      slot = 0 ∧ slot < code.size := by
    have marked := @Graph.marks_iff slot code.size [0]
    rwa [List.mem_singleton] at marked
  rw [leaders, List.mem_filter, List.mem_range, marking _ _ (by simp), first]
  tauto

theorem zero_mem_leaders (nonempty : 0 < code.size) : 0 ∈ code.leaders :=
  mem_leaders_iff.mpr ⟨nonempty, .inl rfl⟩

theorem leaders_pairwise (code : Code) : code.leaders.Pairwise (· < ·) :=
  List.pairwise_lt_range.filter _

/-- Where a jump leads, a block begins. -/
theorem mem_leaders_of_jumpTarget?
    (starts : slot ∈ code.starts) (fetched : code[slot]? = some instruction)
    (jumps : instruction.isJump) (leads : instruction.jumpTarget? slot code.size = some target) :
    target ∈ code.leaders := by
  refine mem_leaders_iff.mpr ⟨lt_of_jumpTarget? leads, .inr ⟨slot, starts, ?_⟩⟩
  simp only [leadersAt, fetched, jumps, if_true, leads]
  exact List.mem_append_left _ (List.mem_singleton_self target)

/-- After a jump or an exit a block begins. -/
theorem mem_leaders_of_turns
    (starts : slot ∈ code.starts) (fetched : code[slot]? = some instruction)
    (turns : (instruction.isJump || instruction.isExit) = true) (inside : slot + 1 < code.size) :
    slot + 1 ∈ code.leaders := by
  refine mem_leaders_iff.mpr ⟨inside, .inr ⟨slot, starts, ?_⟩⟩
  simp only [leadersAt, fetched, turns, if_true]
  exact List.mem_append_right _ (mem_after?_iff.mpr ⟨rfl, inside⟩)

/-- An instruction passes control on to the next one, or it jumps or exits, and then control goes on
to leaders only. -/
theorem WellFormed.isCalm_or_turns
    (wellFormed : code.WellFormed) (starts : slot ∈ code.starts)
    (fetched : code[slot]? = some instruction) :
    instruction.IsCalm ∨
      (instruction.isJump || instruction.isExit) = true ∧ instruction.span = 1 ∧
        ∀ target, code.Edge slot target → target ∈ code.leaders := by
  rcases wellFormed.exists_operation starts with ⟨_, operation, fetched', decoded⟩
  cases fetched.symm.trans fetched'
  have encodes := Instruction.encodes_of_decode? decoded
  by_cases straight : operation.isStraight = true
  · exact .inl (encodes.isCalm straight)
  · refine .inr ?_
    cases encodes with
    | jump jumps =>
        have isJump : instruction.isJump := by rw [Instruction.isJump, jumps, Bool.true_or]
        refine ⟨by rw [isJump, Bool.true_or], Instruction.span_of_isJumpFamily
          (Instruction.isJumpFamily_of_isJumpAlways jumps), fun target edge => ?_⟩
        exact mem_leaders_of_jumpTarget? starts fetched isJump
          ((edge_iff_of_isJumpAlways fetched jumps).mp edge)
    | branch jumps named =>
        have isJump : instruction.isJump := by
          rw [Instruction.isJump, (Instruction.isConditionalJump_of_named jumps named).1,
            Bool.or_true]
        have turns : (instruction.isJump || instruction.isExit) = true := by
          rw [isJump, Bool.true_or]
        refine ⟨turns, Instruction.span_of_isJumpFamily jumps, fun target edge => ?_⟩
        rcases (edge_iff_of_named fetched jumps named).mp edge with ⟨rfl, inside⟩ | leads
        · exact mem_leaders_of_turns starts fetched turns inside
        · exact mem_leaders_of_jumpTarget? starts fetched isJump leads
    | exit exits =>
        exact ⟨by rw [exits, Bool.or_true],
          Instruction.span_of_isJumpFamily (Instruction.isJumpFamily_of_isExit exits),
          fun target edge => absurd edge (not_edge_of_isExit fetched exits)⟩
    | _ => exact absurd rfl straight

/-- No block begins in the second half of a wide load. -/
theorem WellFormed.starts_of_mem_leaders
    (wellFormed : code.WellFormed) (leader : slot ∈ code.leaders) : slot ∈ code.starts := by
  rcases mem_leaders_iff.mp leader with ⟨_, rfl | ⟨position, starts, leads⟩⟩
  · exact zero_mem_starts wellFormed.nonempty
  · have fetched := Array.getElem?_eq_getElem (lt_of_mem_startsFrom starts)
    simp only [leadersAt, fetched, List.mem_append] at leads
    rcases leads with jumped | next
    · split at jumped
      case isTrue jumps =>
        rcases wellFormed.lands position starts _ fetched jumps with ⟨target, known, leads⟩
        rw [leads] at jumped
        cases List.mem_singleton.mp jumped
        exact known
      case isFalse => cases jumped
    · split at next
      case isTrue turns =>
        rcases mem_after?_iff.mp next with ⟨rfl, inside⟩
        rcases wellFormed.isCalm_or_turns starts fetched with calm | ⟨_, short, _⟩
        · rw [Instruction.isJump, calm.1, calm.2.1, calm.2.2] at turns
          cases turns
        · rw [← short] at inside ⊢
          exact span_mem_startsFrom starts fetched inside
      case isFalse => cases next

/-! ## Ends of blocks -/

/-- The last instruction before a limit: it starts before the limit and the next one does not. -/
theorem lastBefore_spec
    {limit : Nat} (within : limit ≤ code.size) (starts : position ∈ code.starts)
    (before : position < limit) :
    code.lastBefore limit position ∈ code.starts ∧
      position ≤ code.lastBefore limit position ∧ code.lastBefore limit position < limit ∧
      ∀ instruction, code[code.lastBefore limit position]? = some instruction →
        limit ≤ code.lastBefore limit position + instruction.span := by
  induction position using lastBefore.induct code limit with
  | case1 position inside next more continues =>
      have fetched := Array.getElem?_eq_getElem inside
      have onward := span_mem_startsFrom starts fetched (Nat.lt_of_lt_of_le more within)
      rw [lastBefore, dif_pos inside, if_pos more]
      rcases continues onward more with ⟨ends, later, rest⟩
      exact ⟨ends, Nat.le_trans (Nat.le_add_right _ _) later, rest⟩
  | case2 position inside next past =>
      rw [lastBefore, dif_pos inside, if_neg past]
      refine ⟨starts, Nat.le_refl _, before, fun instruction fetched => ?_⟩
      cases (Array.getElem?_eq_getElem inside).symm.trans fetched
      exact Nat.not_lt.mp past
  | case3 position outside => omega

end Code

/-- The slot lies between the two ends of the block. -/
def Block.Holds (block : Block) (slot : Nat) : Prop :=
  block.start ≤ slot ∧ slot ≤ block.last

/-- The block runs from one of the leaders to the last instruction before the next one. -/
structure Block.Spans (block : Block) (code : Code) (leaders : List Nat) : Prop where
  begins : block.start ∈ leaders
  ends : block.last ∈ code.starts
  ordered : block.start ≤ block.last
  apart : ∀ leader ∈ leaders, block.start < leader → block.last < leader
  stops : ∀ instruction, code[block.last]? = some instruction →
    block.last + instruction.span ∈ leaders ∨ code.size ≤ block.last + instruction.span

namespace Code

variable {code : Code} {leaders : List Nat} {slot : Nat} {block : Block}

theorem map_start_blocksFrom (code : Code) (leaders : List Nat) :
    (code.blocksFrom leaders).map Block.start = leaders := by
  induction leaders with
  | nil => rfl
  | cons start rest continues => rw [blocksFrom, List.map_cons, continues]

theorem start_mem_of_mem_blocksFrom (listed : block ∈ code.blocksFrom leaders) :
    block.start ∈ leaders := by
  rw [← map_start_blocksFrom code leaders]
  exact List.mem_map_of_mem listed

theorem successors_of_mem_blocksFrom (listed : block ∈ code.blocksFrom leaders) :
    block.successors = code.successors block.last := by
  induction leaders with
  | nil => cases listed
  | cons start rest continues =>
      rcases List.mem_cons.mp listed with rfl | later
      · rfl
      · exact continues later

/-- The limit of the first of some blocks: the next leader, or the end of the program. -/
theorem lastBefore_limit
    {start : Nat} {rest : List Nat} (ordered : (start :: rest).Pairwise (· < ·))
    (known : ∀ leader ∈ start :: rest, leader ∈ code.starts) :
    rest.head?.getD code.size ≤ code.size ∧ start < rest.head?.getD code.size ∧
      ∀ leader ∈ rest, rest.head?.getD code.size ≤ leader := by
  cases rest with
  | nil =>
      exact ⟨Nat.le_refl _, lt_of_mem_startsFrom (known start List.mem_cons_self),
        fun leader absurdity => by cases absurdity⟩
  | cons next rest =>
      rw [List.forall_mem_cons, List.forall_mem_cons] at known
      rw [List.pairwise_cons, List.pairwise_cons, List.forall_mem_cons] at ordered
      exact ⟨Nat.le_of_lt (lt_of_mem_startsFrom known.2.1), ordered.1.1,
        List.forall_mem_cons.mpr ⟨Nat.le_refl _, fun leader listed =>
          Nat.le_of_lt (ordered.2.1 leader listed)⟩⟩

/-- Each block goes from its leader to the last start before the next one. -/
theorem spans_of_mem_blocksFrom
    (ordered : leaders.Pairwise (· < ·)) (known : ∀ leader ∈ leaders, leader ∈ code.starts)
    (listed : block ∈ code.blocksFrom leaders) : block.Spans code leaders := by
  induction leaders with
  | nil => cases listed
  | cons start rest continues =>
      rcases lastBefore_limit ordered known with ⟨within, before, least⟩
      rw [List.forall_mem_cons] at known
      rw [List.pairwise_cons] at ordered
      rcases List.mem_cons.mp listed with rfl | later
      · rcases lastBefore_spec within known.1 before with ⟨ends, after, short, full⟩
        refine ⟨List.mem_cons_self, ends, after, List.forall_mem_cons.mpr
          ⟨fun absurdity => absurd absurdity (Nat.lt_irrefl _), fun leader listed _ =>
            Nat.lt_of_lt_of_le short (least leader listed)⟩, fun instruction fetched => ?_⟩
        dsimp only at fetched ⊢
        have past := full instruction fetched
        cases rest with
        | nil => exact .inr past
        | cons next rest =>
            -- No instruction starts inside the last one, so the next leader follows it directly.
            refine .inl (List.mem_cons_of_mem _ ?_)
            rcases Nat.lt_or_eq_of_le past with inner | same
            · exact absurd (known.2 next List.mem_cons_self)
                (not_mem_startsFrom_of_within ends fetched short inner)
            · rw [← same]
              exact List.mem_cons_self
      · have spans := continues ordered.2 known.2 later
        refine ⟨List.mem_cons_of_mem _ spans.begins, spans.ends, spans.ordered,
          List.forall_mem_cons.mpr ⟨fun absurdity => ?_, spans.apart⟩,
          fun instruction fetched => ?_⟩
        · exact absurd absurdity (Nat.lt_asymm (ordered.1 _ spans.begins))
        · exact (spans.stops instruction fetched).imp_left (List.mem_cons_of_mem _)

/-- The blocks lie one after the other. -/
theorem blocksFrom_pairwise
    (ordered : leaders.Pairwise (· < ·)) (known : ∀ leader ∈ leaders, leader ∈ code.starts) :
    (code.blocksFrom leaders).Pairwise fun block next => block.last < next.start := by
  induction leaders with
  | nil => exact .nil
  | cons start rest continues =>
      have spans := spans_of_mem_blocksFrom ordered known (List.mem_cons_self)
      refine .cons (fun next later => ?_)
        (continues (List.pairwise_cons.mp ordered).2 (List.forall_mem_cons.mp known).2)
      have begins := start_mem_of_mem_blocksFrom later
      exact spans.apart _ (List.mem_cons_of_mem _ begins)
        ((List.pairwise_cons.mp ordered).1 _ begins)

/-- Every instruction from a leader on lies in one of the blocks. -/
theorem exists_mem_blocksFrom
    (ordered : leaders.Pairwise (· < ·)) (known : ∀ leader ∈ leaders, leader ∈ code.starts)
    (starts : slot ∈ code.starts) (after : ∃ leader ∈ leaders, leader ≤ slot) :
    ∃ block ∈ code.blocksFrom leaders, block.Holds slot := by
  induction leaders with
  | nil =>
      rcases after with ⟨leader, absurdity, _⟩
      cases absurdity
  | cons start rest continues =>
      by_cases later : ∃ leader ∈ rest, leader ≤ slot
      · rcases continues (List.pairwise_cons.mp ordered).2 (List.forall_mem_cons.mp known).2
          later with ⟨block, listed, holds⟩
        exact ⟨block, List.mem_cons_of_mem _ listed, holds⟩
      · have after : start ≤ slot := by
          rcases after with ⟨leader, listed, after⟩
          rcases List.mem_cons.mp listed with rfl | listed
          · exact after
          · exact absurd ⟨leader, listed, after⟩ later
        refine ⟨_, List.mem_cons_self, after, ?_⟩
        have spans := spans_of_mem_blocksFrom ordered known List.mem_cons_self
        by_contra beyond
        have inside := lt_of_mem_startsFrom spans.ends
        have fetched := Array.getElem?_eq_getElem inside
        have past := Nat.le_of_not_lt fun inner => absurd starts
          (not_mem_startsFrom_of_within spans.ends fetched (Nat.lt_of_not_le beyond) inner)
        rcases spans.stops _ fetched with leader | outside
        · rcases List.mem_cons.mp leader with same | listed
          · have moves := code[code.lastBefore (rest.head?.getD code.size) start].span_pos
            have ordered := spans.ordered
            dsimp only at same ordered
            omega
          · exact later ⟨_, listed, past⟩
        · exact absurd (lt_of_mem_startsFrom starts) (Nat.not_lt.mpr (Nat.le_trans outside past))

/-! ## Blocks of a program -/

/-- A block lists the starts of the blocks that have its own start among their successors. -/
theorem blocks_eq (code : Code) :
    code.blocks = (code.blocksFrom code.leaders).map fun bare =>
      { bare with
        predecessors := ((code.blocksFrom code.leaders).filter fun source =>
          bare.start ∈ source.successors).map Block.start } := by
  refine List.map_congr_left fun bare listed => ?_
  have distinct : ∀ block ∈ code.blocksFrom code.leaders, block.successors.Nodup := by
    intro block listed
    rw [successors_of_mem_blocksFrom listed]
    exact successors_nodup block.last
  have inside := (mem_leaders_iff.mp (start_mem_of_mem_blocksFrom listed)).1
  rw [getElem?_collect Block.successors Block.start _ distinct, if_pos inside, Option.getD_some]

/-- Blocks lie one after another. -/
theorem blocks_pairwise (wellFormed : code.WellFormed) :
    code.blocks.Pairwise fun block next => block.last < next.start := by
  rw [blocks_eq, List.pairwise_map]
  exact blocksFrom_pairwise (leaders_pairwise code) fun _ => wellFormed.starts_of_mem_leaders

theorem spans_of_mem_blocks (wellFormed : code.WellFormed) (listed : block ∈ code.blocks) :
    block.Spans code code.leaders := by
  rw [blocks_eq] at listed
  rcases List.mem_map.mp listed with ⟨bare, among, rfl⟩
  have spans := spans_of_mem_blocksFrom (leaders_pairwise code)
    (fun _ => wellFormed.starts_of_mem_leaders) among
  exact ⟨spans.begins, spans.ends, spans.ordered, spans.apart, spans.stops⟩

theorem successors_of_mem_blocks (listed : block ∈ code.blocks) :
    block.successors = code.successors block.last := by
  rw [blocks_eq] at listed
  rcases List.mem_map.mp listed with ⟨bare, among, rfl⟩
  exact (successors_of_mem_blocksFrom among : bare.successors = _)

theorem predecessors_of_mem_blocks (listed : block ∈ code.blocks) :
    block.predecessors =
      (code.blocks.filter fun source => block.start ∈ source.successors).map Block.start := by
  rw [blocks_eq] at listed ⊢
  rcases List.mem_map.mp listed with ⟨bare, among, rfl⟩
  rw [List.filter_map, List.map_map]
  rfl

theorem exists_block_of_leader (leader : slot ∈ code.leaders) :
    ∃ block ∈ code.blocks, block.start = slot := by
  rw [← map_start_blocksFrom code code.leaders] at leader
  rcases List.mem_map.mp leader with ⟨bare, listed, same⟩
  rw [blocks_eq]
  exact ⟨_, List.mem_map_of_mem listed, same⟩

/-- Every instruction lies in a block. -/
theorem exists_block_of_starts (wellFormed : code.WellFormed) (starts : slot ∈ code.starts) :
    ∃ block ∈ code.blocks, block.Holds slot := by
  rcases exists_mem_blocksFrom (leaders_pairwise code)
    (fun _ => wellFormed.starts_of_mem_leaders) starts
    ⟨0, zero_mem_leaders wellFormed.nonempty, Nat.zero_le slot⟩ with ⟨bare, listed, holds⟩
  rw [blocks_eq]
  exact ⟨_, List.mem_map_of_mem listed, holds⟩

/-- No slot lies in two blocks. -/
theorem eq_of_holds
    {other : Block} (wellFormed : code.WellFormed) (listed : block ∈ code.blocks)
    (listed' : other ∈ code.blocks) (holds : block.Holds slot) (holds' : other.Holds slot) :
    block = other := by
  by_contra distinct
  let apart (first second : Block) : Prop := first.last < second.start ∨ second.last < first.start
  have pairwise : code.blocks.Pairwise apart := (blocks_pairwise wellFormed).imp .inl
  have : Std.Symm apart := ⟨fun _ _ => Or.symm⟩
  rcases pairwise.forall listed listed' distinct with before | before
  · exact absurd (Nat.le_trans holds'.1 holds.2) (Nat.not_le.mpr before)
  · exact absurd (Nat.le_trans holds.1 holds'.2) (Nat.not_le.mpr before)

/-- Two blocks do not begin at one slot. -/
theorem eq_of_start
    {other : Block} (wellFormed : code.WellFormed) (listed : block ∈ code.blocks)
    (listed' : other ∈ code.blocks) (same : block.start = other.start) : block = other := by
  have holds : block.Holds block.start :=
    ⟨Nat.le_refl _, (spans_of_mem_blocks wellFormed listed).ordered⟩
  refine eq_of_holds wellFormed listed listed' holds ⟨Nat.le_of_eq same.symm, ?_⟩
  rw [same]
  exact (spans_of_mem_blocks wellFormed listed').ordered

/-! ## Edges between and inside blocks -/

/-- Control goes on inside a block to the next instruction, and out of it from the last one to
a leader. -/
theorem WellFormed.edge_of_holds
    (wellFormed : code.WellFormed) (listed : block ∈ code.blocks) (starts : slot ∈ code.starts)
    (holds : block.Holds slot) {instruction : Instruction}
    (fetched : code[slot]? = some instruction) {target : Nat} (edge : code.Edge slot target) :
    (target = slot + instruction.span ∧ block.Holds target) ∨
      (slot = block.last ∧ target ∈ code.leaders) := by
  have spans := spans_of_mem_blocks wellFormed listed
  have within {inner : Nat} (later : slot < inner) (known : inner ∈ code.starts) :
      slot + instruction.span ≤ inner :=
    Nat.le_of_not_lt fun short => not_mem_startsFrom_of_within starts fetched later short known
  rcases wellFormed.isCalm_or_turns starts fetched with calm | ⟨turns, short, leads⟩
  · rcases (edge_iff_of_isCalm fetched calm).mp edge with ⟨rfl, inside⟩
    rcases Nat.lt_or_eq_of_le holds.2 with before | same
    · exact .inl ⟨rfl, Nat.le_trans holds.1 (Nat.le_add_right _ _), within before spans.ends⟩
    · refine .inr ⟨same, ?_⟩
      rw [same] at fetched inside ⊢
      exact (spans.stops instruction fetched).resolve_right (Nat.not_le.mpr inside)
  · refine .inr ⟨?_, leads target edge⟩
    -- Were it not the last one, a leader would follow inside the block.
    by_contra inner
    have before : slot < block.last := Nat.lt_of_le_of_ne holds.2 inner
    have leader := mem_leaders_of_turns starts fetched turns
      (Nat.lt_of_le_of_lt before (lt_of_mem_startsFrom spans.ends))
    have past := spans.apart _ leader (Nat.lt_succ_of_le holds.1)
    omega

/-- A block lists another among its predecessors if the other lists it among its successors. -/
theorem start_mem_predecessors_iff
    {other : Block} (wellFormed : code.WellFormed) (listed : block ∈ code.blocks)
    (listed' : other ∈ code.blocks) :
    block.start ∈ other.predecessors ↔ other.start ∈ block.successors := by
  rw [predecessors_of_mem_blocks listed', List.mem_map]
  constructor
  · rintro ⟨source, leads, same⟩
    rw [List.mem_filter, decide_eq_true_eq] at leads
    rw [← eq_of_start wellFormed leads.1 listed same]
    exact leads.2
  · intro leads
    exact ⟨block, List.mem_filter.mpr ⟨listed, decide_eq_true leads⟩, rfl⟩

/-- No block is listed twice among those before another. -/
theorem predecessors_nodup (listed : block ∈ code.blocks) : block.predecessors.Nodup := by
  rw [predecessors_of_mem_blocks listed]
  have ordered : (code.blocks.map Block.start).Nodup := by
    rw [blocks_eq, List.map_map]
    show ((code.blocksFrom code.leaders).map Block.start).Nodup
    rw [map_start_blocksFrom]
    exact (leaders_pairwise code).imp Nat.ne_of_lt
  exact ordered.sublist (List.filter_sublist.map _)

/-- A second slot of a two-slot load leads where the load leads. -/
theorem WellFormed.successors_of_second
    (wellFormed : code.WellFormed) (inside : slot < code.size) (second : slot ∉ code.starts) :
    ∃ load ∈ code.starts, slot = load + 1 ∧ code.successors slot = code.successors load := by
  rcases exists_start_before inside second (Nat.zero_le slot) with
    ⟨load, instruction, starts, fetched, later, within⟩
  unfold Instruction.span at within
  split at within
  case isTrue wide =>
    have here : slot = load + 1 := by omega
    rcases wellFormed.second_of_wide starts fetched wide with ⟨next, follows, blank⟩
    refine ⟨load, starts, here, ?_⟩
    have family : next.family = .wideLoad := by
      rw [Instruction.family, blank]
      rfl
    have calm := Instruction.isCalm_of_family family rfl rfl
    have narrow : next.isWideLoad = false := by
      rw [Instruction.isWideLoad, blank]
      rfl
    have onward : code.successors slot = (code.after? slot 1).toList := by
      simp only [successors, here, follows, narrow, calm.1, calm.2.1, calm.2.2,
        Bool.false_eq_true, if_false]
    have past : code.successors load = (code.after? load 2).toList := by
      simp only [successors, fetched, wide, if_true]
    rw [onward, past, here, after?, after?, Nat.add_assoc]
  case isFalse => omega

end Code

namespace Graph

variable {code : Code}

/-- The block of a slot is the one that it lies in. -/
theorem blockOf?_eq_some_iff
    (wellFormed : code.WellFormed) {slot : Nat} {block : Block} :
    (ofCode code).blockOf? slot = some block ↔ block ∈ code.blocks ∧ block.Holds slot := by
  have found {block : Block} (finds : (ofCode code).blockOf? slot = some block) :
      block ∈ code.blocks ∧ block.Holds slot := by
    refine ⟨List.mem_of_find?_eq_some finds, ?_⟩
    simpa [Block.Holds] using List.find?_some finds
  refine ⟨found, fun ⟨listed, holds⟩ => ?_⟩
  cases finds : (ofCode code).blockOf? slot with
  | none =>
      have missed := List.find?_eq_none.mp finds block listed
      exact absurd holds (by simpa [Block.Holds] using missed)
  | some other =>
      rw [Code.eq_of_holds wellFormed (found finds).1 listed (found finds).2 holds]

/-- The blocks of a graph cut a program into straight runs of instructions. -/
structure Partitions (graph : Graph) (code : Code) : Prop where
  /-- Every instruction lies in one block and no more, and no block is listed twice. -/
  holds : ∀ slot ∈ code.starts, ∃! block, block ∈ graph.blocks ∧ block.Holds slot
  distinct : graph.blocks.Pairwise fun block next => block.last < next.start
  /-- The ends of a block are instructions. -/
  ends : ∀ block ∈ graph.blocks,
    block.start ∈ code.starts ∧ block.last ∈ code.starts ∧ block.start ≤ block.last
  /-- Control goes from an instruction to the next one of its block, or from the last instruction of
  a block to the first one of a block. -/
  edges : ∀ slot ∈ code.starts, ∀ target, code.Edge slot target →
    (∃ block ∈ graph.blocks, block.Holds slot ∧ block.Holds target ∧
      ∃ instruction, code[slot]? = some instruction ∧ target = slot + instruction.span) ∨
      ∃ block ∈ graph.blocks, ∃ next ∈ graph.blocks, block.last = slot ∧ next.start = target
  /-- A slot in which no instruction starts leads where the one before it leads. -/
  seconds : ∀ slot < code.size, slot ∉ code.starts →
    ∃ load ∈ code.starts, slot = load + 1 ∧ ∀ target, code.Edge slot target ↔ code.Edge load target
  /-- Control goes from the last instruction of a block to the successors that the block lists. -/
  successors : ∀ block ∈ graph.blocks, ∀ target,
    target ∈ block.successors ↔ code.Edge block.last target
  /-- A block lists another among its successors if the other lists it among its predecessors, and
  only then. -/
  listed : ∀ block ∈ graph.blocks, ∀ next ∈ graph.blocks,
    next.start ∈ block.successors ↔ block.start ∈ next.predecessors
  /-- Both lists name starts of blocks, and name none twice. -/
  named : ∀ block ∈ graph.blocks, ∀ start ∈ block.successors ++ block.predecessors,
    ∃ other ∈ graph.blocks, other.start = start
  once : ∀ block ∈ graph.blocks, block.successors.Nodup ∧ block.predecessors.Nodup
  /-- The block of a slot is the one in which it lies. -/
  blockOf : ∀ slot block, graph.blockOf? slot = some block ↔
    block ∈ graph.blocks ∧ block.Holds slot

/-- Control leaves a block for the start of a block. -/
theorem exists_block_of_edge
    (wellFormed : code.WellFormed) {block : Block} (listed : block ∈ code.blocks) {target : Nat}
    (edge : code.Edge block.last target) : ∃ next ∈ code.blocks, next.start = target := by
  have spans := Code.spans_of_mem_blocks wellFormed listed
  have inside := Code.lt_of_mem_startsFrom spans.ends
  have fetched := Array.getElem?_eq_getElem inside
  apply Code.exists_block_of_leader
  rcases wellFormed.edge_of_holds listed spans.ends ⟨spans.ordered, Nat.le_refl _⟩ fetched edge
    with ⟨rfl, further⟩ | ⟨_, leader⟩
  · have past := further.2
    have moves := code[block.last].span_pos
    omega
  · exact leader

/-- The blocks of a program that passed the structural checks partition it. -/
theorem ofCode_partitions
    {code : Code} {limit : Nat} (structured : code.checkStructure limit = .ok ()) :
    (ofCode code).Partitions code := by
  have wellFormed := Code.wellFormed_of_checkStructure structured
  constructor
  case holds =>
    intro slot starts
    rcases Code.exists_block_of_starts wellFormed starts with ⟨block, listed, holds⟩
    exact ⟨block, ⟨listed, holds⟩, fun other found =>
      Code.eq_of_holds wellFormed found.1 listed found.2 holds⟩
  case distinct => exact Code.blocks_pairwise wellFormed
  case ends =>
    intro block listed
    have spans := Code.spans_of_mem_blocks wellFormed listed
    exact ⟨wellFormed.starts_of_mem_leaders spans.begins, spans.ends, spans.ordered⟩
  case edges =>
    intro slot starts target edge
    rcases Code.exists_block_of_starts wellFormed starts with ⟨block, listed, holds⟩
    have fetched := Array.getElem?_eq_getElem (Code.lt_of_mem_startsFrom starts)
    rcases wellFormed.edge_of_holds listed starts holds fetched edge with
      ⟨next, further⟩ | ⟨rfl, leader⟩
    · exact .inl ⟨block, listed, holds, further, _, fetched, next⟩
    · rcases Code.exists_block_of_leader leader with ⟨next, listed', begins⟩
      exact .inr ⟨block, listed, next, listed', rfl, begins⟩
  case seconds =>
    intro slot inside second
    rcases wellFormed.successors_of_second inside second with ⟨load, starts, here, same⟩
    refine ⟨load, starts, here, fun target => ?_⟩
    rw [Code.Edge, Code.Edge, same]
  case successors =>
    intro block listed target
    rw [Code.successors_of_mem_blocks listed]
    rfl
  case listed =>
    intro block listed next listed'
    exact (Code.start_mem_predecessors_iff wellFormed listed listed').symm
  case named =>
    intro block listed start named
    rcases List.mem_append.mp named with ahead | behind
    · rw [Code.successors_of_mem_blocks listed] at ahead
      exact exists_block_of_edge wellFormed listed ahead
    · rw [Code.predecessors_of_mem_blocks listed] at behind
      rcases List.mem_map.mp behind with ⟨source, among, same⟩
      exact ⟨source, (List.mem_filter.mp among).1, same⟩
  case once =>
    intro block listed
    refine ⟨?_, Code.predecessors_nodup listed⟩
    rw [Code.successors_of_mem_blocks listed]
    exact Code.successors_nodup block.last
  case blockOf =>
    intro slot block
    exact blockOf?_eq_some_iff wellFormed

/-- A jump to the next slot, a branch round a two-slot load, and an exit that nothing leads to
behind another. -/
def choppedCode : Code :=
  #[⟨0x05, 0, 0, 0, 0⟩, ⟨0x15, 1, 0, 2, 0⟩, ⟨0x18, 0, 0, 0, 5⟩, ⟨0, 0, 0, 0, 0⟩, ⟨0x95, 0, 0, 0, 0⟩,
    ⟨0x95, 0, 0, 0, 0⟩]

theorem ofCode_partitions_chopped :
    choppedCode.checkStructure 6 = .ok () ∧ (ofCode choppedCode).Partitions choppedCode ∧
      (ofCode choppedCode).blocks.map (fun block => (block.start, block.last)) =
        [(0, 0), (1, 1), (2, 2), (4, 4), (5, 5)] ∧
      (ofCode choppedCode).blockOf? 3 = none := by
  have structured : choppedCode.checkStructure 6 = .ok () := by decide +kernel
  exact ⟨structured, ofCode_partitions structured, by decide +kernel, by decide +kernel⟩

end Graph

end PacketFilter
