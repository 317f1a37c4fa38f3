import Mathlib.Data.String.Basic
import PacketFilter.Proofs.LogContents

/-!
# The end of a log

The end of a log within a number of bytes is the longest one that is all of
the log or begins with one of its lines.  A log is empty or ends with an end
of line, so there always is such an end.

It is found in the bytes of the log: from the first byte within the limit on
to the first at which a character begins, and on to the next line, if no line
begins there.  No byte is looked at that the log does not have, and no
character is cut.
-/

namespace PacketFilter

/-! ## Ends of texts -/

/-- The end of a text is all of it, or comes right after an end of line. -/
def IsLineSuffix (text suffix : String) : Prop :=
  suffix = text ∨ ∃ before, text = before ++ "\n" ++ suffix

/-- The longest end of a text that begins with a line and is within a number of bytes. -/
structure IsTail (text : String) (limit : Nat) (tail : String) : Prop where
  suffix : IsLineSuffix text tail
  fits : tail.utf8ByteSize ≤ limit
  longest : ∀ other, IsLineSuffix text other → other.utf8ByteSize ≤ limit →
    other.utf8ByteSize ≤ tail.utf8ByteSize

namespace Log

/-! ## Cutting bytes -/

/-- The text from a byte on; nothing where that byte is inside of a character or past the end. -/
def cutAt? (text : String) (byte : Nat) : Option String :=
  if starts : String.Pos.Raw.IsValid text ⟨byte⟩ then
    some (text.sliceFrom (text.pos ⟨byte⟩ starts)).copy
  else
    none

/-- The first byte from a byte on at which a character begins or the text ends; nothing when the
text has ended before. -/
def nextStart? (text : String) (byte : Nat) : Option Nat :=
  if String.Pos.Raw.IsValid text ⟨byte⟩ then some byte
  else if byte < text.utf8ByteSize then nextStart? text (byte + 1)
  else none
  termination_by text.utf8ByteSize - byte

/-- The byte before a byte, where there is one. -/
def previousByte? (text : String) : Nat → Option UInt8
  | 0 => none
  | byte + 1 => text.toByteArray[byte]?

/-- How many bytes of the text come before the first end of line. -/
def endOfLine? (text : String) : Option Nat :=
  if '\n' ∈ text.toList then
    some (String.ofList (text.toList.takeWhile (· ≠ '\n'))).utf8ByteSize
  else
    none

/-- The end of the log, found in its bytes; nothing where a byte is asked for that is not there, or
a character would be cut. -/
def cutTail? (log : Log) (limit : Nat) : Option String := do
  if log.size ≤ limit then
    return log.contents
  let start ← nextStart? log.contents (log.size - limit)
  let previous ← previousByte? log.contents start
  let rest ← cutAt? log.contents start
  if previous = 10 then
    return rest
  match endOfLine? rest with
  | some length => cutAt? log.contents (start + length + 1)
  | none => return rest

variable {text before line rest : List Char} {last : Char} {byte : Nat}

/-- A text cut behind a part of it leaves the rest. -/
theorem cutAt_append (before rest : String) :
    cutAt? (before ++ rest) before.utf8ByteSize = some rest := by
  have starts : String.Pos.Raw.IsValid (before ++ rest) ⟨before.utf8ByteSize⟩ :=
    String.Pos.Raw.isValid_iff_exists_append.mpr ⟨before, rest, rfl, rfl⟩
  rw [cutAt?, dif_pos starts, Option.some_inj]
  exact String.copy_sliceFrom_eq_iff_exists_splits.mpr ⟨before, rfl, rfl⟩

theorem cutAt_ofList (before rest : List Char) :
    cutAt? (String.ofList (before ++ rest)) (String.utf8Len before) =
      some (String.ofList rest) := by
  rw [String.ofList_append, ← String.utf8ByteSize_ofList]
  exact cutAt_append _ _

/-- What comes after an end of line. -/
theorem cutAt_line (before line rest : List Char) :
    cutAt? (String.ofList (before ++ (line ++ '\n' :: rest)))
        (String.utf8Len before + String.utf8Len line + 1) =
      some (String.ofList rest) := by
  have whole : before ++ (line ++ '\n' :: rest) = (before ++ line ++ ['\n']) ++ rest := by simp
  have size : String.utf8Len (before ++ line ++ ['\n']) =
      String.utf8Len before + String.utf8Len line + 1 := by
    rw [String.utf8Len_append, String.utf8Len_append]
    rfl
  rw [whole, ← size]
  exact cutAt_ofList _ _

/-- Inside of a character no character begins. -/
theorem not_isValid_inside
    (after : String.utf8Len before < byte) (inside : byte < String.utf8Len (before ++ [last])) :
    ¬ String.Pos.Raw.IsValid (String.ofList (before ++ last :: rest)) ⟨byte⟩ := by
  intro starts
  obtain ⟨front, back, split, here⟩ := String.Pos.Raw.isValid_iff_exists_append.mp starts
  have size : byte = String.utf8Len front.toList := by
    rw [String.utf8Len_toList]
    exact congrArg String.Pos.Raw.byteIdx here
  have parts : before ++ last :: rest = front.toList ++ back.toList := by
    rw [← @String.toList_ofList (before ++ last :: rest), split, String.toList_append]
  rcases List.append_eq_append_iff.mp parts with ⟨more, longer, tail⟩ | ⟨more, shorter, _⟩
  · cases more with
    | nil =>
        rw [longer, List.append_nil] at size
        omega
    | cons character more =>
        obtain ⟨rfl, _⟩ := List.cons_eq_cons.mp tail
        rw [longer, ← List.singleton_append, ← List.append_assoc, String.utf8Len_append] at size
        omega
  · rw [shorter, String.utf8Len_append] at after
    omega

/-- From within a character, the next start is the one behind it. -/
theorem nextStart_inside
    (after : String.utf8Len before < byte) (inside : byte ≤ String.utf8Len (before ++ [last])) :
    nextStart? (String.ofList (before ++ last :: rest)) byte =
      some (String.utf8Len (before ++ [last])) := by
  obtain ⟨missing, reached⟩ := Nat.exists_eq_add_of_le inside
  induction missing generalizing byte with
  | zero =>
      have starts : String.Pos.Raw.IsValid (String.ofList (before ++ last :: rest)) ⟨byte⟩ := by
        refine String.Pos.Raw.isValid_iff_exists_append.mpr
          ⟨String.ofList (before ++ [last]), String.ofList rest, ?_, ?_⟩
        · rw [← String.ofList_append, List.append_assoc, List.singleton_append]
        · rw [String.rawEndPos_ofList, reached, Nat.add_zero]
      rw [nextStart?, if_pos starts, reached, Nat.add_zero]
  | succ missing hypothesis =>
      have short : byte < (String.ofList (before ++ last :: rest)).utf8ByteSize := by
        rw [String.utf8ByteSize_ofList, ← List.singleton_append, ← List.append_assoc,
          String.utf8Len_append]
        omega
      rw [nextStart?, if_neg (not_isValid_inside after (by omega)), if_pos short]
      exact hypothesis (by omega) (by omega) (by omega)

theorem getElem?_toByteArray (text : List Char) (byte : Nat) :
    (String.ofList text).toByteArray[byte]? = (text.flatMap String.utf8EncodeChar)[byte]? := by
  rw [String.toByteArray_ofList, List.utf8Encode]
  by_cases inside : byte < (text.flatMap String.utf8EncodeChar).length
  · rw [List.getElem?_eq_getElem inside, getElem?_pos _ _ (by simpa using inside),
      List.getElem_toByteArray]
  · rw [List.getElem?_eq_none (Nat.le_of_not_lt inside), getElem?_neg _ _ (by simpa using inside)]

theorem length_encoded (text : List Char) :
    (text.flatMap String.utf8EncodeChar).length = String.utf8Len text := by
  induction text with
  | nil => rfl
  | cons character text hypothesis =>
      rw [List.flatMap_cons, List.length_append, hypothesis, String.length_utf8EncodeChar,
        String.utf8Len_cons, Nat.add_comm]

/-- The last byte of a character is an end of line only in that character. -/
theorem last_utf8EncodeChar
    {ending : UInt8} (ends : (String.utf8EncodeChar last)[last.utf8Size - 1]? = some ending) :
    ending = 10 ↔ last = '\n' := by
  constructor
  · rintro rfl
    obtain ⟨inside, here⟩ := List.getElem?_eq_some_iff.mp ends
    have first : ((String.utf8EncodeChar last)[last.utf8Size - 1]).IsUTF8FirstByte := by
      rw [here]
      decide
    have single : last.utf8Size = 1 := by
      have start := UInt8.isUTF8FirstByte_getElem_utf8EncodeChar.mp first
      have := last.utf8Size_pos
      omega
    rw [String.utf8EncodeChar_eq_singleton single, single] at ends
    have low : last.val.toNat % 256 = 10 := by
      rw [← UInt32.toNat_toUInt8, Option.some_inj.mp ends]
      rfl
    have small : last.val.toNat ≤ 127 :=
      UInt32.le_iff_toNat_le.mp (Char.utf8Size_eq_one_iff.mp single)
    have same : last.val.toNat = 10 := by omega
    exact Char.ext (UInt32.toNat_inj.mp same)
  · rintro rfl
    exact (Option.some_inj.mp ends).symm

/-- The byte before a place is a line feed just when the character before it is one. -/
theorem previousByte_split (before rest : List Char) (last : Char) :
    ∃ ending, previousByte? (String.ofList (before ++ last :: rest))
        (String.utf8Len (before ++ [last])) = some ending ∧ (ending = 10 ↔ last = '\n') := by
  have positive := last.utf8Size_pos
  have inside : last.utf8Size - 1 < (String.utf8EncodeChar last).length := by
    rw [String.length_utf8EncodeChar]
    omega
  have place : String.utf8Len (before ++ [last]) =
      (before.flatMap String.utf8EncodeChar).length + (last.utf8Size - 1) + 1 := by
    rw [length_encoded, String.utf8Len_append, String.utf8Len_cons, String.utf8Len_nil]
    omega
  refine ⟨_, ?_, last_utf8EncodeChar (List.getElem?_eq_getElem inside)⟩
  rw [place, previousByte?, getElem?_toByteArray, List.flatMap_append,
    List.getElem?_append_right (Nat.le_add_right ..), Nat.add_sub_cancel_left, List.flatMap_cons,
    List.getElem?_append_left inside, List.getElem?_eq_getElem inside]

/-! ## Lines -/

theorem no_end_within (unbroken : '\n' ∉ line) :
    ∀ character ∈ line, decide (character ≠ '\n') = true :=
  fun _ listed => decide_eq_true fun ends => unbroken (ends ▸ listed)

/-- What stands behind a line without line feeds is what follows its end. -/
theorem afterLine_append (unbroken : '\n' ∉ line) (rest : List Char) :
    afterLine (line ++ '\n' :: rest) = rest := by
  rw [afterLine, List.dropWhile_append_of_pos (no_end_within unbroken),
    List.dropWhile_cons_of_neg (by simp)]

theorem afterLine_eq_self (unbroken : '\n' ∉ text) : afterLine text = text := by
  rw [afterLine, ← List.append_nil text, List.dropWhile_append_of_pos (no_end_within unbroken)]
  rfl

/-- What follows a character, from the next line on. -/
def fromLine (last : Char) (rest : List Char) : List Char :=
  if last = '\n' then rest else afterLine rest

theorem endOfLine_append (unbroken : '\n' ∉ line) (rest : List Char) :
    endOfLine? (String.ofList (line ++ '\n' :: rest)) = some (String.utf8Len line) := by
  rw [endOfLine?, String.toList_ofList, if_pos (by simp),
    List.takeWhile_append_of_pos (no_end_within unbroken), List.takeWhile_cons_of_neg (by simp),
    List.append_nil, String.utf8ByteSize_ofList]

theorem endOfLine_eq_none (unbroken : '\n' ∉ text) :
    endOfLine? (String.ofList text) = none := by
  rw [endOfLine?, String.toList_ofList, if_neg unbroken]

/-! ## The end that is found -/

/-- What is dropped ends with the first character that reaches the count. -/
theorem dropBytes_eq
    {count : Nat} (positive : 0 < count) (enough : count ≤ String.utf8Len text)
    (last? : Option Char) :
    ∃ before last rest, text = before ++ last :: rest ∧ String.utf8Len before < count ∧
      count ≤ String.utf8Len (before ++ [last]) ∧
      dropBytes count last? text = (some last, rest) := by
  induction text generalizing count last? with
  | nil =>
      rw [String.utf8Len_nil] at enough
      omega
  | cons character text hypothesis =>
      obtain ⟨count, rfl⟩ := Nat.exists_eq_add_of_lt positive
      rw [String.utf8Len_cons] at enough
      rw [Nat.zero_add, dropBytes]
      by_cases reached : count + 1 ≤ character.utf8Size
      · refine ⟨[], character, text, rfl, by simp, by simpa using reached, ?_⟩
        rw [Nat.sub_eq_zero_of_le reached]
        cases text <;> rfl
      · obtain ⟨before, last, rest, rfl, short, long, dropped⟩ :=
          @hypothesis (count + 1 - character.utf8Size) (by omega) (by omega) (some character)
        refine ⟨character :: before, last, rest, rfl, ?_, ?_, dropped⟩
        · rw [String.utf8Len_cons]
          omega
        · rw [List.cons_append, String.utf8Len_cons]
          omega

variable {log : Log} {limit : Nat}

theorem exists_split (long : limit < log.size) :
    ∃ before last rest, log.contents = String.ofList (before ++ last :: rest) ∧
      String.utf8Len before < log.size - limit ∧
      log.size - limit ≤ String.utf8Len (before ++ [last]) ∧
      log.tail limit = String.ofList (fromLine last rest) := by
  have size : String.utf8Len log.contents.toList = log.size := String.utf8Len_toList _
  have positive : 0 < log.size - limit := Nat.sub_pos_of_lt long
  have enough : log.size - limit ≤ String.utf8Len log.contents.toList := by omega
  obtain ⟨before, last, rest, split, short, reached, dropped⟩ := dropBytes_eq positive enough none
  refine ⟨before, last, rest, ?_, short, reached, ?_⟩
  · rw [← split, String.ofList_toList]
  · rw [tail, if_neg (by omega), dropped]
    simp only [Option.some_inj, fromLine]

/-- Every byte that is asked for is there, and no character is cut. -/
theorem cutTail_eq (log : Log) (limit : Nat) : log.cutTail? limit = some (log.tail limit) := by
  by_cases short : log.size ≤ limit
  · rw [cutTail?, if_pos short, tail, if_pos short]
    rfl
  obtain ⟨before, last, rest, contents, after, inside, found⟩ :=
    exists_split (Nat.lt_of_not_le short)
  obtain ⟨previous, read, ends⟩ := previousByte_split before rest last
  have joined : before ++ last :: rest = (before ++ [last]) ++ rest := by simp
  have cut := cutAt_ofList (before ++ [last]) rest
  rw [cutTail?, if_neg short, found, contents, nextStart_inside after inside]
  rw [← joined] at cut
  simp only [Option.bind_eq_bind, Option.bind_some, read, cut, ends, fromLine]
  split
  case isTrue => rfl
  case isFalse =>
    by_cases further : '\n' ∈ rest
    · obtain ⟨line, others, rfl, unbroken⟩ := List.eq_append_cons_of_mem further
      rw [endOfLine_append unbroken, afterLine_append unbroken, joined]
      exact cutAt_line (before ++ [last]) line others
    · rw [endOfLine_eq_none further, afterLine_eq_self further]
      rfl

/-! ## The longest end -/

theorem isLineSuffix_append (before rest : List Char) :
    IsLineSuffix (String.ofList (before ++ '\n' :: rest)) (String.ofList rest) := by
  refine .inr ⟨String.ofList before, ?_⟩
  rw [← List.singleton_append, String.ofList_append, String.ofList_append, String.append_assoc]

theorem mem_of_getLast
    (ends : (before ++ last :: rest).getLast? = some '\n') (other : last ≠ '\n') :
    '\n' ∈ rest := by
  rw [List.getLast?_append_cons] at ends
  rcases List.mem_cons.mp (List.mem_of_getLast? ends) with here | further
  · exact absurd here.symm other
  · exact further

/-- A text that is closed by an end of line has one behind every other character. -/
theorem mem_of_closed
    (closed : IsLineSuffix (String.ofList (before ++ last :: rest)) "") (other : last ≠ '\n') :
    '\n' ∈ rest := by
  have ends : (before ++ last :: rest).getLast? = some '\n' := by
    rcases closed with empty | ⟨text, split⟩
    · have none := congrArg String.toList empty
      simp at none
    · have characters := congrArg String.toList split
      rw [String.toList_ofList, String.append_empty, String.toList_append] at characters
      rw [characters]
      exact List.getLast?_concat
  exact mem_of_getLast ends other

/-- Of two ends, the one that comes after the first end of line is the longer. -/
theorem suffix_of_line
    {more other others : List Char} (split : more ++ other = line ++ '\n' :: others)
    (unbroken : '\n' ∉ line) (ends : '\n' ∈ more) :
    other <:+ others := by
  rcases List.append_eq_append_iff.mp split with ⟨part, longer, _⟩ | ⟨part, shorter, tail⟩
  · exact absurd (longer ▸ List.mem_append_left part ends) unbroken
  · cases part with
    | nil =>
        rw [shorter, List.append_nil] at ends
        exact absurd ends unbroken
    | cons character part =>
        obtain ⟨_, rfl⟩ := List.cons_eq_cons.mp tail
        exact List.suffix_append part other

theorem fromLine_suffix (last : Char) (rest : List Char) : fromLine last rest <:+ rest := by
  unfold fromLine
  split
  · exact List.suffix_rfl
  · by_cases further : '\n' ∈ rest
    · obtain ⟨line, others, rfl, unbroken⟩ := List.eq_append_cons_of_mem further
      rw [afterLine_append unbroken]
      exact (List.suffix_cons _ others).trans (List.suffix_append line _)
    · have whole := afterLine_eq_self further
      simp only [whole, List.suffix_rfl]

theorem isLineSuffix_fromLine
    (closed : IsLineSuffix (String.ofList (before ++ last :: rest)) "") :
    IsLineSuffix (String.ofList (before ++ last :: rest)) (String.ofList (fromLine last rest)) := by
  unfold fromLine
  split
  case isTrue here =>
    rw [here]
    exact isLineSuffix_append before rest
  case isFalse other =>
    obtain ⟨line, others, rfl, unbroken⟩ :=
      List.eq_append_cons_of_mem (mem_of_closed closed other)
    rw [afterLine_append unbroken, ← List.cons_append, ← List.append_assoc]
    exact isLineSuffix_append (before ++ last :: line) others

/-- An end that begins with a line, and not before the character is over, comes after it. -/
theorem suffix_fromLine
    {front other : List Char} (split : before ++ last :: rest = front ++ '\n' :: other)
    (reaches : String.utf8Len before < String.utf8Len (front ++ ['\n'])) :
    other <:+ fromLine last rest := by
  have joined : (before ++ [last]) ++ rest = (front ++ ['\n']) ++ other := by
    rw [List.append_assoc, List.append_assoc]
    exact split
  unfold fromLine
  rcases List.append_eq_append_iff.mp joined with ⟨more, longer, rfl⟩ | ⟨more, shorter, rfl⟩
  · split
    case isTrue => exact List.suffix_append more other
    case isFalse foreign =>
      have closing : (before ++ last :: more).getLast? = some '\n' := by
        rw [← List.singleton_append, ← List.append_assoc, ← longer]
        exact List.getLast?_concat
      have ends := mem_of_getLast closing foreign
      obtain ⟨line, others, split', unbroken⟩ :=
        List.eq_append_cons_of_mem (List.mem_append_left other ends)
      rw [split', afterLine_append unbroken]
      exact suffix_of_line split' unbroken ends
  · rcases List.eq_nil_or_concat more with rfl | ⟨more, character, rfl⟩
    · rw [List.append_nil] at shorter
      obtain ⟨_, ends⟩ := List.append_inj' shorter rfl
      rw [if_pos (List.singleton_inj.mp ends)]
      exact List.suffix_rfl
    · rw [List.concat_eq_append, ← List.append_assoc] at shorter
      obtain ⟨same, _⟩ := List.append_inj' shorter rfl
      rw [same, String.utf8Len_append (front ++ ['\n'])] at reaches
      omega

theorem size_le_fromLine
    {other : String} (ending : IsLineSuffix (String.ofList (before ++ last :: rest)) other)
    (short : String.utf8Len before + other.utf8ByteSize <
      String.utf8Len (before ++ last :: rest)) :
    other.utf8ByteSize ≤ String.utf8Len (fromLine last rest) := by
  rcases ending with rfl | ⟨front, split⟩
  · rw [String.utf8ByteSize_ofList] at short
    omega
  · have characters : before ++ last :: rest = front.toList ++ '\n' :: other.toList := by
      have both := congrArg String.toList split
      rw [String.toList_ofList, String.toList_append, String.toList_append, List.append_assoc]
        at both
      exact both
    have reaches : String.utf8Len before < String.utf8Len (front.toList ++ ['\n']) := by
      rw [characters, ← List.singleton_append, ← List.append_assoc, String.utf8Len_append,
        String.utf8Len_toList] at short
      omega
    rw [← String.utf8Len_toList other]
    exact String.utf8Len_le_of_suffix (suffix_fromLine characters reaches)

/-- The end of a log that is empty or ends with an end of line. -/
theorem isTail_tail (closed : IsLineSuffix log.contents "") (limit : Nat) :
    IsTail log.contents limit (log.tail limit) := by
  by_cases short : log.size ≤ limit
  · rw [tail, if_pos short]
    refine ⟨.inl rfl, short, fun other suffix _ => ?_⟩
    rcases suffix with rfl | ⟨before, split⟩
    · exact Nat.le_refl _
    · rw [split, String.utf8ByteSize_append]
      exact Nat.le_add_left ..
  obtain ⟨before, last, rest, contents, after, inside, found⟩ :=
    exists_split (Nat.lt_of_not_le short)
  have whole : log.size = String.utf8Len (before ++ last :: rest) := by
    rw [Log.size, contents, String.utf8ByteSize_ofList]
  have parts : log.size = String.utf8Len (before ++ [last]) + String.utf8Len rest := by
    rw [whole, ← String.utf8Len_append, List.append_assoc, List.singleton_append]
  have suffix := String.utf8Len_le_of_suffix (fromLine_suffix last rest)
  rw [contents] at closed ⊢
  rw [found]
  refine ⟨isLineSuffix_fromLine closed, ?_, fun other ending fits => ?_⟩
  · rw [String.utf8ByteSize_ofList]
    omega
  · rw [String.utf8ByteSize_ofList]
    exact size_le_fromLine ending (by omega)

/-- A limit inside of the second character, one at the beginning of a line, and one that no line
fits in. -/
example :
    let log : Log := { level := .trace, sizeLimit := 64, contents := "aéb\nc\n" }
    (log.tail 5, log.tail 2, log.tail 1) = ("c\n", "c\n", "") := by
  decide

/-! ## Logs that have been written -/

theorem isLineSuffix_lines (messages : List String) : IsLineSuffix (lines messages) "" := by
  rcases List.eq_nil_or_concat messages with rfl | ⟨messages, message, rfl⟩
  · exact .inl rfl
  · rw [List.concat_eq_append, lines_concat]
    exact .inr ⟨_, String.append_empty.symm⟩

theorem Records.closed {messages : List String} (records : log.Records messages) :
    IsLineSuffix log.contents "" := by
  cases records with
  | whole contents =>
      rw [contents]
      exact isLineSuffix_lines messages
  | @cut written _ _ contents =>
      refine .inr ⟨lines written ++ "... log truncated ...", ?_⟩
      rw [contents, String.append_empty, String.append_assoc]
      rfl

/--
Whatever is done to a log that starts out empty, it holds the messages since it
was last cleared, of levels that were kept, each with its end of line, up to the
first that is too much for its size, which leaves the mark.  Of what it holds,
the end within any number of bytes is the longest that is all of it or begins
with a line; and looking for it in the bytes never fails.
-/
theorem records_and_tail (level : LogLevel) (sizeLimit : Nat) (calls : List LogCall) :
    let log := calls.foldl perform { level, sizeLimit }
    log.Follows sizeLimit (calls.foldl Transcript.perform { level }) ∧
      ∀ limit, IsTail log.contents limit (log.tail limit) ∧
        log.cutTail? limit = some (log.tail limit) := by
  have start : Follows { level, sizeLimit } sizeLimit { level } :=
    ⟨rfl, rfl, .whole rfl (Nat.zero_le _) rfl⟩
  have follows := follows_foldl start calls
  exact ⟨follows, fun limit => ⟨isTail_tail follows.records.closed limit, cutTail_eq _ limit⟩⟩

end Log

end PacketFilter
