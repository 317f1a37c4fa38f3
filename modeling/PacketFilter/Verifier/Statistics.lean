/-!
# Statistics of a verification

What the verifier counts, and the line it writes about it.
-/

namespace PacketFilter

/-- Counts kept over one verification. -/
structure Statistics where
  /-- The number of slots of the program. -/
  length : Nat := 0
  /-- Instructions checked, over all paths. -/
  processed : Nat := 0
  /-- Paths given up because what was known had been explored before. -/
  pruned : Nat := 0
  /-- States kept to compare with. -/
  stored : Nat := 0
  /-- The greatest number of paths waiting at once. -/
  peakPending : Nat := 0
  /-- The length of the longest path. -/
  depth : Nat := 0
  /-- Branches of which both edges were followed. -/
  branches : Nat := 0
  helperCalls : Nat := 0
  loops : Nat := 0
  /-- The deepest byte of the stack that is accessed, counted down from the frame register. -/
  stackDepth : Nat := 0
  deriving DecidableEq, Repr

namespace Statistics

/-- The counts on one line, ending with the time taken as the caller writes it. -/
def text (statistics : Statistics) (elapsed : String) : String :=
  s!"processed {statistics.processed} insns ({statistics.length} in program), " ++
    s!"{statistics.stored} states stored, {statistics.pruned} pruned, " ++
    s!"peak worklist {statistics.peakPending}, max depth {statistics.depth}, " ++
    s!"{statistics.branches} branches, {statistics.loops} loops, " ++
    s!"stack depth {statistics.stackDepth}, {elapsed}"

end Statistics

end PacketFilter
