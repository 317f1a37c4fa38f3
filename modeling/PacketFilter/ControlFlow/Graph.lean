import PacketFilter.Instruction.Basic

/-!
# Control-flow graphs

The ways control can pass between the instructions of a program, gathered into
straight-line blocks, and the edges that close a cycle.

The cycle-closing edges are found by one depth-first search from the first
slot: an edge that leads back to a slot still on the search path is a back
edge.  The search is given by its single step, so that what every step keeps
can be said of it; it takes at most three steps for each slot.

Nothing here requires the program to be well formed.
-/

namespace PacketFilter

namespace Code

/-- The slot `distance` slots further on, when there is one. -/
def after? (code : Code) (position distance : Nat) : Option Nat :=
  if position + distance < code.size then some (position + distance) else none

/-- Where control can go from a slot: for a conditional jump first on, then to the target. -/
def successors (code : Code) (position : Nat) : List Nat :=
  match code[position]? with
  | none => []
  | some instruction =>
    if instruction.isWideLoad then
      (code.after? position 2).toList
    else if instruction.isExit then
      []
    else if instruction.isJumpAlways then
      (instruction.jumpTarget? position code.size).toList
    else if instruction.isConditionalJump then
      let next := (code.after? position 1).toList
      let target := (instruction.jumpTarget? position code.size).toList
      next ++ target.filter fun slot => !next.contains slot
    else
      (code.after? position 1).toList

/-- For every slot, the instructions from which control can come there, in address order. -/
def predecessors (code : Code) : Array (List Nat) :=
  code.starts.foldr
    (fun position lists =>
      (code.successors position).foldl
        (fun lists slot => lists.modify slot (position :: ·)) lists)
    (Array.replicate code.size [])

end Code

/-- A straight run of instructions, entered only at its start and left only at its end. -/
structure Block where
  start : Nat
  /-- The last instruction of the run. -/
  last : Nat
  successors : List Nat
  predecessors : List Nat
  deriving Repr

namespace Code

/-- The slots that begin a block because of the instruction at `position`: the target of a jump,
and whatever follows a jump or an exit. -/
def leadersAt (code : Code) (position : Nat) : List Nat :=
  match code[position]? with
  | none => []
  | some instruction =>
    let target :=
      if instruction.isJump then (instruction.jumpTarget? position code.size).toList else []
    let next :=
      if instruction.isJump || instruction.isExit then (code.after? position 1).toList else []
    target ++ next

/-- The starts of all blocks, in address order. -/
def leaders (code : Code) : List Nat :=
  let marked := code.starts.foldl
    (fun marks position =>
      (code.leadersAt position).foldl (fun marks slot => marks.setIfInBounds slot true) marks)
    ((Array.replicate code.size false).setIfInBounds 0 true)
  (List.range code.size).filter fun slot => marked[slot]?.getD false

/-- The last instruction that starts before `limit` when reading on from `position`. -/
def lastBefore (code : Code) (limit position : Nat) : Nat :=
  if inside : position < code.size then
    let next := position + code[position].span
    if next < limit then lastBefore code limit next else position
  else
    position
termination_by code.size - position
decreasing_by
  have := code[position].span_pos
  omega

/-- The blocks that start at the given slots, the last of them ending with the program. -/
def blocksFrom (code : Code) : List Nat → List Block
  | [] => []
  | start :: rest =>
    let last := code.lastBefore (rest.head?.getD code.size) start
    ⟨start, last, code.successors last, []⟩ :: blocksFrom code rest

/-- The blocks of the program in address order, each listing the blocks control comes from. -/
def blocks (code : Code) : List Block :=
  let bare := code.blocksFrom code.leaders
  let sources := bare.foldr
    (fun block lists =>
      block.successors.foldl (fun lists slot => lists.modify slot (block.start :: ·)) lists)
    (Array.replicate code.size [])
  bare.map fun block => { block with predecessors := sources[block.start]?.getD [] }

end Code

/-- The state of the search for back edges. -/
structure Search where
  /-- The path from the first slot, innermost first, each slot with the successors still to be
  looked at. -/
  path : List (Nat × List Nat)
  /-- The slots the search has left for good, the latest first. -/
  finished : List Nat
  /-- The back edges found so far, the latest first. -/
  backEdges : List (Nat × Nat)
  deriving Repr

namespace Search

/-- The search at the first slot of the program. -/
def start (code : Code) : Search :=
  ⟨[(0, code.successors 0)], [], []⟩

/-- The slot is one that the search has entered and not left yet. -/
def isOnPath (search : Search) (slot : Nat) : Bool :=
  search.path.any fun entry => entry.1 == slot

/-- Look at one successor of the innermost slot, or leave the slot when none is left.  Nothing
once the path is empty. -/
def step? (code : Code) (search : Search) : Option Search :=
  match search.path with
  | [] => none
  | (slot, []) :: outer =>
    some { search with path := outer, finished := slot :: search.finished }
  | (slot, next :: rest) :: outer =>
    let moved := { search with path := (slot, rest) :: outer }
    if search.isOnPath next then
      some { moved with backEdges := (slot, next) :: search.backEdges }
    else if search.finished.contains next then
      some moved
    else
      some { moved with path := (next, code.successors next) :: moved.path }

/-- Take steps until the search is over or the allowance is used up. -/
def run (code : Code) (search : Search) : Nat → Search
  | 0 => search
  | allowance + 1 =>
    match search.step? code with
    | none => search
    | some next => run code next allowance

/-- The search of a whole program.  Every slot is entered and left once and has at most two
successors. -/
def ofCode (code : Code) : Search :=
  if code.isEmpty then ⟨[], [], []⟩ else (start code).run code (4 * code.size + 1)

end Search

/-- The control-flow graph of a program. -/
structure Graph where
  blocks : List Block
  /-- Edges that lead back to a slot on the search path, in the order they were found. -/
  backEdges : List (Nat × Nat)
  /-- The slots control can reach from the first one, in address order. -/
  reachable : List Nat
  deriving Repr

namespace Graph

/-- The blocks of the code, and what one search from its first slot finds. -/
def ofCode (code : Code) : Graph :=
  let search := Search.ofCode code
  let reached := search.finished.foldl (fun marks slot => marks.setIfInBounds slot true)
    (Array.replicate code.size false)
  { blocks := code.blocks
    backEdges := search.backEdges.reverse
    reachable := (List.range code.size).filter fun slot => reached[slot]?.getD false }

/-- The block that holds a slot. -/
def blockOf? (graph : Graph) (slot : Nat) : Option Block :=
  graph.blocks.find? fun block => block.start ≤ slot && slot ≤ block.last

/-- The edge leads back to a slot on the path that the search had come along. -/
def isBackEdge (graph : Graph) (source target : Nat) : Bool :=
  graph.backEdges.contains (source, target)

/-- Some edge leads back, so that a run may come to a slot twice. -/
def hasLoops (graph : Graph) : Bool :=
  !graph.backEdges.isEmpty

/-- Collect what leads to the listed slots, not going past slots already collected. -/
def collectBackwards (predecessors : Array (List Nat)) (reachable : Array Bool) :
    Nat → List Nat → Array Bool → Array Bool
  | 0, _, body => body
  | _ + 1, [], body => body
  | allowance + 1, slot :: work, body =>
    if body[slot]?.getD true then
      collectBackwards predecessors reachable allowance work body
    else
      let sources :=
        (predecessors[slot]?.getD []).filter fun source => reachable[source]?.getD false
      collectBackwards predecessors reachable allowance (sources ++ work)
        (body.setIfInBounds slot true)

/-- The slots marked in an array, in order. -/
def marked (marks : Array Bool) : List Nat :=
  (List.range marks.size).filter fun slot => marks[slot]?.getD false

/-- Marks at the listed slots of a program of `length` slots. -/
def marks (length : Nat) (slots : List Nat) : Array Bool :=
  slots.foldl (fun marks slot => marks.setIfInBounds slot true) (Array.replicate length false)

/-- The natural loop of a back edge: its header and every reachable slot that reaches the latch
without passing the header.  Every edge of the program is followed at most once. -/
def naturalLoop (graph : Graph) (code : Code) (latch header : Nat) : List Nat :=
  marked <| collectBackwards code.predecessors (marks code.size graph.reachable)
    (2 * code.size + 2) [latch] (marks code.size [header])

end Graph

end PacketFilter
