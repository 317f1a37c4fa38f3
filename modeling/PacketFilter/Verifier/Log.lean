import PacketFilter.Abstract.Text
import PacketFilter.Instruction.Listing

/-!
# The verifier log

A text of limited size, one message to a line.  A message above the level of
the log is not kept; the first message that does not fit leaves a mark, and
after that nothing is kept until the log is cleared.

Sizes are counted in bytes of the text's encoding.
-/

namespace PacketFilter

/-- How much a log keeps, and how important a message is. -/
inductive LogLevel where
  | off
  | error
  | warning
  | information
  | debug
  | trace
  deriving DecidableEq, Repr

namespace LogLevel

/-- How much a level lets through. -/
def rank : LogLevel → Nat
  | off => 0
  | error => 1
  | warning => 2
  | information => 3
  | debug => 4
  | trace => 5

/-- Every level, the quietest first. -/
def all : List LogLevel :=
  [off, error, warning, information, debug, trace]

/-- The level of a rank. -/
def ofRank? (rank : Nat) : Option LogLevel :=
  all.find? fun level => level.rank == rank

end LogLevel

/-- A log of limited size. -/
structure Log where
  level : LogLevel
  sizeLimit : Nat
  contents : String := ""
  isTruncated : Bool := false
  deriving DecidableEq, Repr

namespace Log

/-- How many bytes a log takes unless it is given another limit. -/
def defaultSizeLimit : Nat := 1024 * 1024

def size (log : Log) : Nat :=
  log.contents.utf8ByteSize

/-- Messages of this level are kept. -/
def keeps (log : Log) (level : LogLevel) : Bool :=
  level.rank ≤ log.level.rank && level != .off

/-- The mark left by the first message that did not fit. -/
def truncationMark : String :=
  "... log truncated ...\n"

/-- Add a message, if it is to be kept and fits. -/
def add (log : Log) (level : LogLevel) (message : String) : Log :=
  if !log.keeps level || log.isTruncated then
    log
  else if log.sizeLimit < log.size + message.utf8ByteSize + 1 then
    { log with contents := log.contents ++ truncationMark, isTruncated := true }
  else
    { log with contents := log.contents ++ message ++ "\n" }

/-- Start over, with the level and the limit kept. -/
def clear (log : Log) : Log :=
  { log with contents := "", isTruncated := false }

/-- Drop characters until at least `count` bytes are gone; also the last character dropped. -/
def dropBytes : Nat → Option Char → List Char → Option Char × List Char
  | _, last?, [] => (last?, [])
  | 0, last?, rest => (last?, rest)
  | count + 1, _, character :: rest =>
    dropBytes (count + 1 - character.utf8Size) (some character) rest

/-- What follows the first end of line; all of it when there is none. -/
def afterLine (text : List Char) : List Char :=
  match text.dropWhile (· ≠ '\n') with
  | [] => text
  | _ :: rest => rest

/-- The end of the log in at most `limit` bytes, beginning with a line. -/
def tail (log : Log) (limit : Nat) : String :=
  if log.size ≤ limit then
    log.contents
  else
    let (last?, rest) := dropBytes (log.size - limit) none log.contents.toList
    String.ofList (if last? = some '\n' then rest else afterLine rest)

/-! ## Messages of the verifier -/

/-- Note an error, with its slot if it has one. -/
def addError (log : Log) (position? : Option Nat) (message : String) : Log :=
  match position? with
  | some position => log.add .error s!"{position}: ERROR: {message}"
  | none => log.add .error s!"ERROR: {message}"

/-- Note a call that has passed its check. -/
def addCall (log : Log) (position : Nat) (helper : Helper) : Log :=
  log.add .information s!"{position}: call {helper.name}#{helper.number}"

/-- Note that a path ends here, for a state like its own has been visited. -/
def addPruned (log : Log) (position : Nat) : Log :=
  log.add .information s!"{position}: safe (equivalent state already verified)"

/-- Which edges of a branch are followed, and where the walk goes on. -/
def addBranch (log : Log) (position : Nat) (outcome : String) (target : Nat) : Log :=
  log.add .debug s!"{position}: branch {outcome} -> {target}"

/-- The instruction about to be checked and what is known before it. -/
def addInstruction (log : Log) (code : Code) (position : Nat) (state : AbstractState) : Log :=
  if log.keeps .trace then
    match code[position]? with
    | none => log
    | some instruction =>
      let text := instruction.text code[position + 1]?
      log.add .trace s!"{position}: {text} ; {state.registersText}"
  else
    log

end Log

end PacketFilter
