import PacketFilter.ControlFlow.Structure
import PacketFilter.Program
import PacketFilter.Verifier.Walk

/-!
# Verification

A program is let through when it is well formed, the maps it expects are
there, each of its loops is counted, and the walk over all its paths finds
nothing to refuse.  A refused program comes back with the end of the log.
-/

namespace PacketFilter

/-- How programs are verified. -/
structure VerifierConfig where
  limits : Limits := {}
  logLevel : LogLevel := .error
  logSize : Nat := Log.defaultSizeLimit
  deriving Repr

namespace Verifier

/-- How many bytes of the log go with a rejection. -/
def rejectionLogSize : Nat := 4096

/-- Find the map that a binding expects and compare its shape. -/
def resolveBinding (find? : String → Option (MapId × Schema)) (binding : MapBinding) :
    Except Rejection (MapId × Schema) :=
  match find? binding.name with
  | none => .error (.ofProgram (.mapNotRegistered binding.name))
  | some found =>
    if binding.shape = found.2.shape then
      .ok found
    else
      .error (.ofProgram (.mapShape binding.name found.2.shape binding.shape))

/-- The checks that come before the walk; what the walk needs to know, and the maps found. -/
def prepare (find? : String → Option (MapId × Schema)) (limits : Limits) (program : Program) :
    Except Rejection (Journey × List MapId) := do
  program.code.checkStructure limits.length
  let maps ← program.bindings.mapM (resolveBinding find?)
  let graph := Graph.ofCode program.code
  program.code.checkFallThrough graph
  let loops ← graph.countedLoops program.code
  let schemas := (maps.map Prod.snd).toArray
  let setting := { attach := program.attach, schemas }
  return ({ code := program.code, setting, limits, graph, loops }, maps.map Prod.fst)

/-- Hand out a rejection with the end of the log. -/
def rejectWith (log : Log) (rejection : Rejection) : Rejection :=
  let log := log.addError rejection.position? rejection.cause.message
  { rejection with logTail := log.tail rejectionLogSize }

/-- The counts of a finished walk. -/
def statisticsOf (walk : Walk) : Statistics :=
  { walk.statistics with
    helperCalls := walk.focus.helperCalls
    stackDepth := walk.focus.deepestAccess }

/--
Verify a program against the maps found by name.  The last argument is how the
time taken is written into the log; taking the time is left to the caller.
-/
def verify (config : VerifierConfig) (find? : String → Option (MapId × Schema))
    (program : Program) (elapsed : String) : Except Rejection VerifiedProgram :=
  let log : Log := { level := config.logLevel, sizeLimit := config.logSize }
  match prepare find? config.limits program with
  | .error rejection => .error (rejectWith log rejection)
  | .ok (journey, maps) =>
    match (Walk.start journey log).run journey config.limits.complexity with
    | .rejected log rejection => .error (rejectWith log rejection)
    | .continue walk | .finished walk =>
      let statistics := statisticsOf walk
      let log := walk.log.add .information
        ("verification succeeded: " ++ statistics.text elapsed)
      .ok { program, maps, statistics, log := log.contents }

end Verifier

end PacketFilter
