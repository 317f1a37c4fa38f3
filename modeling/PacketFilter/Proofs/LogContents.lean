import PacketFilter.Verifier.Log

/-!
# What a log holds

A log is told messages of any level, its level may change, and it may be
cleared.  Without a limit it would hold every message of a level that it kept
at that time, since it was last cleared.  With one it holds the first of these
messages, each with its end of line, as long as they fit together; where one
does not fit stands the mark, and nothing comes after the mark.
-/

namespace PacketFilter

/-- What is done to a log. -/
inductive LogCall where
  | add (level : LogLevel) (message : String)
  | setLevel (level : LogLevel)
  | clear
  deriving DecidableEq, Repr

/-- A log without limit, as the list of its messages. -/
structure Transcript where
  level : LogLevel
  messages : List String := []
  deriving DecidableEq, Repr

/-- A message is taken unless its level is that of silence, or above that of the transcript. -/
def Transcript.perform (transcript : Transcript) : LogCall → Transcript
  | .add level message =>
    if level ≠ .off ∧ level.rank ≤ transcript.level.rank then
      { transcript with messages := transcript.messages ++ [message] }
    else
      transcript
  | .setLevel level => { transcript with level }
  | .clear => { transcript with messages := [] }

namespace Log

def perform (log : Log) : LogCall → Log
  | .add level message => log.add level message
  | .setLevel level => { log with level }
  | .clear => log.clear

/-- The messages, each followed by an end of line. -/
def lines : List String → String
  | [] => ""
  | message :: messages => message ++ "\n" ++ lines messages

/-- The log holds these messages, up to the first one that is too much for its size. -/
inductive Records (log : Log) : List String → Prop where
  /-- All messages fit. -/
  | whole {messages : List String}
      (contents : log.contents = lines messages)
      (fits : (lines messages).utf8ByteSize ≤ log.sizeLimit)
      (untruncated : log.isTruncated = false) :
      Records log messages
  /-- One of the messages does not fit behind those written before it. -/
  | cut {written : List String} {refused : String} {others : List String}
      (contents : log.contents = lines written ++ truncationMark)
      (fits : (lines written).utf8ByteSize ≤ log.sizeLimit)
      (exceeds : log.sizeLimit < (lines (written ++ [refused])).utf8ByteSize)
      (truncated : log.isTruncated = true) :
      Records log (written ++ refused :: others)

variable {log : Log} {transcript : Transcript} {messages : List String}

/-- The lines of two lists of messages stand one behind the other. -/
theorem lines_append (messages others : List String) :
    lines (messages ++ others) = lines messages ++ lines others := by
  induction messages with
  | nil => exact String.empty_append.symm
  | cons message messages hypothesis =>
      rw [List.cons_append, lines, lines, hypothesis, ← String.append_assoc]

theorem lines_concat (messages : List String) (message : String) :
    lines (messages ++ [message]) = lines messages ++ message ++ "\n" := by
  rw [lines_append, lines, lines, String.append_empty, String.append_assoc]

/-- A further message takes its own bytes and one for the end of the line. -/
theorem size_lines_concat (messages : List String) (message : String) :
    (lines (messages ++ [message])).utf8ByteSize =
      (lines messages).utf8ByteSize + message.utf8ByteSize + 1 := by
  rw [lines_concat, String.utf8ByteSize_append, String.utf8ByteSize_append]
  rfl

/-! ## One call -/

/-- A log keeps the messages whose level is not above its own, and none of level off. -/
theorem keeps_iff {level : LogLevel} :
    log.keeps level = true ↔ level ≠ .off ∧ level.rank ≤ log.level.rank := by
  simp [keeps, and_comm]

theorem level_add (log : Log) (level : LogLevel) (message : String) :
    (log.add level message).level = log.level := by
  unfold add
  split
  · rfl
  · split <;> rfl

theorem sizeLimit_add (log : Log) (level : LogLevel) (message : String) :
    (log.add level message).sizeLimit = log.sizeLimit := by
  unfold add
  split
  · rfl
  · split <;> rfl

/-- A message that is kept is recorded behind the ones there are. -/
theorem Records.add
    (records : log.Records messages) {level : LogLevel} (kept : log.keeps level = true)
    (message : String) :
    (log.add level message).Records (messages ++ [message]) := by
  cases records with
  | whole contents fits untruncated =>
      have size : log.size = (lines messages).utf8ByteSize := congrArg String.utf8ByteSize contents
      rw [Log.add, kept, untruncated, if_neg (by decide), size, ← size_lines_concat]
      split
      case isTrue exceeds =>
        exact .cut (congrArg (· ++ truncationMark) contents) fits exceeds rfl
      case isFalse within =>
        refine .whole ?_ (Nat.le_of_not_lt within) rfl
        rw [lines_concat, ← contents]
  | cut contents fits exceeds truncated =>
      rw [Log.add, truncated, Bool.or_true, if_pos rfl, List.append_assoc, List.cons_append]
      exact .cut contents fits exceeds truncated

/-- A change of the level leaves what is recorded alone. -/
theorem Records.setLevel (records : log.Records messages) (level : LogLevel) :
    { log with level }.Records messages := by
  cases records with
  | whole contents fits untruncated => exact .whole contents fits untruncated
  | cut contents fits exceeds truncated => exact .cut contents fits exceeds truncated

/-- The log is that of a transcript: it has its level, and of its messages as many as fit. -/
structure Follows (log : Log) (limit : Nat) (transcript : Transcript) : Prop where
  level : log.level = transcript.level
  limit : log.sizeLimit = limit
  records : log.Records transcript.messages

/-- A log that follows a transcript follows it through one more call. -/
theorem Follows.perform
    {limit : Nat} (follows : log.Follows limit transcript) (call : LogCall) :
    (log.perform call).Follows limit (transcript.perform call) := by
  cases call with
  | add level message =>
      rw [Log.perform, Transcript.perform, ← follows.level]
      by_cases kept : log.keeps level = true
      · rw [if_pos (keeps_iff.mp kept)]
        exact ⟨level_add log level message, (sizeLimit_add log level message).trans follows.limit,
          follows.records.add kept message⟩
      · rw [if_neg fun held => kept (keeps_iff.mpr held), Log.add, if_pos (by simp [kept])]
        exact follows
  | setLevel level => exact ⟨rfl, follows.limit, follows.records.setLevel level⟩
  | clear => exact ⟨follows.level, follows.limit, .whole rfl (Nat.zero_le _) rfl⟩

/-! ## All calls -/

/-- A log that follows a transcript follows it through any list of calls. -/
theorem follows_foldl
    {limit : Nat} (follows : log.Follows limit transcript) (calls : List LogCall) :
    (calls.foldl perform log).Follows limit (calls.foldl Transcript.perform transcript) := by
  induction calls generalizing log transcript with
  | nil => exact follows
  | cons call calls hypothesis => exact hypothesis (follows.perform call)

end Log

end PacketFilter
