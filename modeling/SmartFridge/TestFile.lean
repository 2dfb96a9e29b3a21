import Mathlib.Logic.Function.Iterate
import SmartFridge.SocketFormat

/-!
# The test file

In test mode `sf_bar_handler` reads its codes from a file, a line in each turn
of its loop.  What a file of entries and comments makes it offer are the nodes
of the entries, once or over and over again, and an entry means the same as a
message on the socket.
-/

namespace SmartFridge.TestFile

open SmartFridge.Library
open SmartFridge.Reader
open SmartFridge.SocketMode (maxLogsize)
open SmartFridge.SocketFormat

/-! ## The loop -/

/-- `getline`: the characters up to the end of the line, and those behind. -/
def getline : List UInt8 → List UInt8 × List UInt8
  | [] => ([], [])
  | byte :: rest =>
      if byte = 10 then
        ([10], rest)
      else
        (byte :: (getline rest).1, (getline rest).2)

/-- The loop of the test mode between two turns: what it has not read, and what
it has offered to the id queue. -/
structure Loop where
  unread : List UInt8
  offered : List ProductNode
  ended : Bool
deriving DecidableEq

/-- The loop before its first turn. -/
def Loop.start (file : List UInt8) : Loop :=
  { unread := file, offered := [], ended := false }

/-- The configuration asks for repetition. -/
def repeats (testRepeat : CString) : Bool :=
  testRepeat.caseEq (.lit "yes")

/-- A turn of the loop, which is over after a `break`. -/
def turn (mode : DbMode) (testRepeat : CString) (file : List UInt8)
    (loop : Loop) : Loop :=
  if loop.ended then
    loop
  else
    let (prId, unread) := getline loop.unread
    if prId.length < 1 then
      if repeats testRepeat then
        { loop with unread := file }
      else
        { loop with ended := true }
    else
      { loop with
        unread
        offered :=
          loop.offered ++ (testNode mode (CString.ofBuffer prId)).toList }

/-- The test mode of `sf_bar_handler` after some turns of its loop. -/
def sfBarHandler (mode : DbMode) (testRepeat : CString) (file : List UInt8)
    (turns : Nat) : Loop :=
  (turn mode testRepeat file)^[turns] (.start file)

/-! ## Files of entries and comments -/

/-- A comment without its mark. -/
structure Remark where
  bytes : List UInt8
  unbroken : 10 ∉ bytes

/-- A number that fits in an `int`. -/
structure IntNumeral where
  numeral : Numeral
  isInt : numeral.IsInt

/-- A code with an optional number and an optional comment. -/
structure Entry where
  code : CString
  number : Option IntNumeral
  remark : Option Remark
  nonempty : code ≠ .empty
  unremarked : 35 ∉ code.bytes
  undivided : Json.colon ∉ code.bytes
  unbroken : 10 ∉ code.bytes

/-- What the number of an entry looks like. -/
def numberBytes : Option IntNumeral → List UInt8
  | none => []
  | some number => Json.colon :: number.numeral.bytes

/-- What the comment behind an entry looks like. -/
def remarkBytes : Option Remark → List UInt8
  | none => []
  | some remark => 35 :: remark.bytes

/-- An entry as it is written. -/
def Entry.bytes (entry : Entry) : List UInt8 :=
  entry.code.bytes ++ numberBytes entry.number ++ remarkBytes entry.remark

/-- What a number stands for, which is one if it was left out. -/
def quantity : Option IntNumeral → Int32
  | none => 1
  | some number => .ofInt number.numeral.value

/-- The node that an entry stands for. -/
def Entry.node (mode : DbMode) (entry : Entry) : ProductNode :=
  { code := entry.code, number := quantity entry.number, mode }

/-- A line of the file. -/
inductive Line where
  | comment (remark : Remark)
  | entry (entry : Entry)

/-- A line as it is written. -/
def Line.bytes : Line → List UInt8
  | .comment remark => 35 :: remark.bytes
  | .entry written => written.bytes

/-- The nodes that a line stands for. -/
def Line.nodes (mode : DbMode) : Line → List ProductNode
  | .comment _ => []
  | .entry written => [written.node mode]

/-- The lines of a file, of which the last may be without a newline. -/
def written (finalNewline : Bool) : List Line → List UInt8
  | [] => []
  | [last] => last.bytes ++ if finalNewline then [10] else []
  | line :: rest => line.bytes ++ 10 :: written finalNewline rest

/-! ## The lines of a file -/

theorem getline_of_newline {line : List UInt8} (unbroken : 10 ∉ line)
    (rest : List UInt8) :
    getline (line ++ 10 :: rest) = (line ++ [10], rest) := by
  induction line with
  | nil => rfl
  | cons byte more ih =>
      rw [List.mem_cons, not_or] at unbroken
      rw [List.cons_append, getline, if_neg (Ne.symm unbroken.1),
        ih unbroken.2]
      rfl

theorem getline_of_unbroken {line : List UInt8} (unbroken : 10 ∉ line) :
    getline line = (line, []) := by
  induction line with
  | nil => rfl
  | cons byte more ih =>
      rw [List.mem_cons, not_or] at unbroken
      rw [getline, if_neg (Ne.symm unbroken.1), ih unbroken.2]

theorem numberBytes_plain (number : Option IntNumeral) {byte : UInt8}
    (notColon : byte ≠ Json.colon) (notDigit : CString.isDigit byte = false)
    (plus : byte ≠ 43) (minus : byte ≠ 45) : byte ∉ numberBytes number := by
  cases number with
  | none => exact List.not_mem_nil
  | some number =>
      rw [numberBytes, List.mem_cons, not_or]
      exact ⟨notColon, number.numeral.not_mem_bytes notDigit plus minus⟩

theorem Line.unbroken (line : Line) : 10 ∉ line.bytes := by
  cases line with
  | comment remark =>
      rw [Line.bytes, List.mem_cons, not_or]
      exact ⟨by decide, remark.unbroken⟩
  | entry entry =>
      rw [Line.bytes, Entry.bytes, List.mem_append, List.mem_append, not_or,
        not_or]
      refine ⟨⟨entry.unbroken, ?_⟩, ?_⟩
      · exact numberBytes_plain _ (by decide) rfl (by decide) (by decide)
      · cases entry.remark with
        | none => exact List.not_mem_nil
        | some remark =>
            rw [remarkBytes, List.mem_cons, not_or]
            exact ⟨by decide, remark.unbroken⟩

/-- A line is not empty, so that it is not taken for the end of the file. -/
theorem Line.bytes_ne_nil (line : Line) : line.bytes ≠ [] := by
  cases line with
  | comment remark => exact List.cons_ne_nil _ _
  | entry entry =>
      intro empty
      rw [Line.bytes, Entry.bytes, List.append_assoc] at empty
      exact entry.nonempty (CString.ext (List.append_eq_nil_iff.mp empty).1)

/-- What ends a line: a newline, or nothing in the last line. -/
def Ending (bytes : List UInt8) : Prop :=
  bytes = [10] ∨ bytes = []

/-- What is left of an entry once the comment and the newline are cut off. -/
theorem before_before {core : CString} (unremarked : 35 ∉ core.bytes)
    (unbroken : 10 ∉ core.bytes) (remark : Option Remark)
    {ending : List UInt8} (ends : Ending ending) :
    ((CString.ofBuffer
      (core.bytes ++ (remarkBytes remark ++ ending))).before 35).before 10 =
        core := by
  cases remark with
  | some remark =>
      have bytes : (CString.ofBuffer (core.bytes ++
          (remarkBytes (some remark) ++ ending))).bytes =
            core.bytes ++ 35 :: (CString.ofBuffer
              (remark.bytes ++ ending)).bytes :=
        CString.ofBuffer_append core.nulFree _
      rw [CString.before_of_append bytes unremarked,
        CString.before_of_not_mem unbroken]
  | none =>
      rcases ends with rfl | rfl
      · have bytes : (CString.ofBuffer (core.bytes ++
            (remarkBytes none ++ [10]))).bytes = core.bytes ++ [10] :=
          CString.ofBuffer_append core.nulFree _
        have unmarked : 35 ∉ (CString.ofBuffer (core.bytes ++
            (remarkBytes none ++ [10]))).bytes := by
          rw [bytes, List.mem_append, not_or]
          exact ⟨unremarked, by decide⟩
        rw [CString.before_of_not_mem unmarked,
          CString.before_of_append bytes unbroken]
      · rw [remarkBytes, List.append_nil, List.append_nil,
          CString.ofBuffer_bytes, CString.before_of_not_mem unremarked,
          CString.before_of_not_mem unbroken]

/-- An entry without its comment. -/
def Entry.core (entry : Entry) : CString where
  bytes := entry.code.bytes ++ numberBytes entry.number
  nulFree := by
    rw [List.mem_append, not_or]
    exact ⟨entry.code.nulFree,
      numberBytes_plain _ (by decide) rfl (by decide) (by decide)⟩

theorem Entry.core_plain (entry : Entry) {byte : UInt8}
    (inCode : byte ∉ entry.code.bytes) (notColon : byte ≠ Json.colon)
    (notDigit : CString.isDigit byte = false) (plus : byte ≠ 43)
    (minus : byte ≠ 45) : byte ∉ entry.core.bytes := by
  rw [Entry.core, List.mem_append, not_or]
  exact ⟨inCode, numberBytes_plain _ notColon notDigit plus minus⟩

theorem Entry.core_bytes (entry : Entry) :
    entry.core.bytes = entry.code.bytes ++ numberBytes entry.number :=
  rfl

theorem Entry.core_cut_of_none {entry : Entry} (number : entry.number = none) :
    entry.core = entry.code ∧ entry.core.cut Json.colon = none := by
  have bytes := entry.core_bytes
  rw [number, numberBytes, List.append_nil] at bytes
  refine ⟨CString.ext bytes, CString.cut_of_not_mem ?_⟩
  rw [bytes]
  exact entry.undivided

theorem Entry.core_cut_of_some {entry : Entry} {number : IntNumeral}
    (given : entry.number = some number) :
    entry.core.cut Json.colon = some (entry.code, number.numeral.text) := by
  have bytes := entry.core_bytes
  rw [given] at bytes
  exact CString.cut_of_append bytes entry.undivided

/-- An entry does not begin like a comment. -/
theorem Entry.head?_ne (entry : Entry) (rest : List UInt8) :
    (entry.bytes ++ rest).head? ≠ some 35 := by
  rw [Entry.bytes, List.append_assoc, List.append_assoc]
  have unremarked := entry.unremarked
  cases bytes : entry.code.bytes with
  | nil => exact absurd (CString.ext bytes) entry.nonempty
  | cons first more =>
      rw [bytes, List.mem_cons, not_or] at unremarked
      rw [List.cons_append, List.head?_cons, ne_eq, Option.some.injEq]
      exact fun same => unremarked.1 same.symm

/-- A line of an entry gives the node of the entry. -/
theorem testNode_entry (mode : DbMode) (entry : Entry) {ending : List UInt8}
    (ends : Ending ending) :
    testNode mode (CString.ofBuffer (entry.bytes ++ ending)) =
      some (entry.node mode) := by
  have parts : entry.bytes ++ ending =
      entry.core.bytes ++ (remarkBytes entry.remark ++ ending) := by
    simp [Entry.bytes, Entry.core_bytes]
  have text := before_before
    (entry.core_plain entry.unremarked (by decide) rfl (by decide) (by decide))
    (entry.core_plain entry.unbroken (by decide) rfl (by decide) (by decide))
    entry.remark ends
  rw [← parts] at text
  have uncommented :
      (CString.ofBuffer (entry.bytes ++ ending)).bytes.head? ≠ some 35 := by
    rw [CString.ofBuffer, List.head?_takeWhile]
    intro isHead
    exact entry.head?_ne ending (Option.filter_eq_some_iff.mp isHead).1
  unfold testNode
  rw [if_neg uncommented, text]
  dsimp only
  cases given : entry.number with
  | none =>
      rcases entry.core_cut_of_none given with ⟨whole, uncut⟩
      rw [uncut, whole, Entry.node, given]
      rfl
  | some number =>
      have read : readNumber number.numeral.text =
          .ofInt number.numeral.value :=
        readNumber_followed number.isInt (List.append_nil _).symm
          fun _ impossible => by cases impossible
      rw [Entry.core_cut_of_some given, Entry.node, given, quantity, ← read]

/-- What a line gives. -/
theorem testNode_line (mode : DbMode) (line : Line) {ending : List UInt8}
    (ends : Ending ending) :
    (testNode mode (CString.ofBuffer (line.bytes ++ ending))).toList =
      line.nodes mode := by
  cases line with
  | comment remark => rfl
  | entry entry =>
      rw [Line.bytes, testNode_entry mode entry ends]
      rfl

/-! ## The turns of the loop -/

section Turns

variable {mode : DbMode} {testRepeat : CString} {file : List UInt8}

/-- The first line of a file is read as a line, and then the others are left. -/
theorem getline_written (finalNewline : Bool) (line : Line)
    (rest : List Line) :
    ∃ ending, Ending ending ∧
      getline (written finalNewline (line :: rest)) =
        (line.bytes ++ ending, written finalNewline rest) := by
  cases rest with
  | nil =>
      cases finalNewline with
      | false =>
          refine ⟨[], .inr rfl, ?_⟩
          change getline (line.bytes ++ []) = _
          rw [List.append_nil, getline_of_unbroken line.unbroken]
          rfl
      | true => exact ⟨[10], .inl rfl, getline_of_newline line.unbroken []⟩
  | cons next others =>
      exact ⟨[10], .inl rfl, getline_of_newline line.unbroken _⟩

/-- A turn at a line offers its nodes and goes on to the next line. -/
theorem turn_line (finalNewline : Bool) (line : Line) (rest : List Line)
    (offered : List ProductNode) :
    turn mode testRepeat file
        { unread := written finalNewline (line :: rest), offered,
          ended := false } =
      { unread := written finalNewline rest
        offered := offered ++ line.nodes mode
        ended := false } := by
  rcases getline_written finalNewline line rest with ⟨ending, ends, read⟩
  have nonempty : ¬ (line.bytes ++ ending).length < 1 := by
    have positive := List.length_pos_of_ne_nil line.bytes_ne_nil
    rw [List.length_append]
    omega
  rw [turn, if_neg Bool.false_ne_true]
  simp only [read]
  rw [if_neg nonempty, testNode_line mode line ends]

/-- Some turns at some lines offer the nodes of as many lines. -/
theorem turns_lines (finalNewline : Bool) (lines : List Line)
    (offered : List ProductNode) {turns : Nat} (few : turns ≤ lines.length) :
    (turn mode testRepeat file)^[turns]
        { unread := written finalNewline lines, offered, ended := false } =
      { unread := written finalNewline (lines.drop turns)
        offered := offered ++ (lines.take turns).flatMap (Line.nodes mode)
        ended := false } := by
  induction turns generalizing lines offered with
  | zero => simp
  | succ turns ih =>
      cases lines with
      | nil => exact absurd few (Nat.not_succ_le_zero turns)
      | cons line rest =>
          rw [Function.iterate_succ_apply, turn_line,
            ih rest _ (Nat.le_of_succ_le_succ few), List.drop_succ_cons,
            List.take_succ_cons, List.flatMap_cons, List.append_assoc]

/-- A turn at the end of the file begins it again or ends the loop. -/
theorem turn_end (offered : List ProductNode) :
    turn mode testRepeat file { unread := [], offered, ended := false } =
      if repeats testRepeat then
        { unread := file, offered, ended := false }
      else
        { unread := [], offered, ended := true } := by
  rfl

/-- A loop that has ended stays as it is. -/
theorem turns_ended (loop : Loop) (ended : loop.ended = true) (turns : Nat) :
    (turn mode testRepeat file)^[turns] loop = loop := by
  apply Function.iterate_fixed
  rw [turn, if_pos ended]

/-- The turns that a pass takes: one for each line, and one for the end. -/
theorem turns_pass (finalNewline : Bool) (lines : List Line)
    (offered : List ProductNode) :
    (turn mode testRepeat file)^[lines.length + 1]
        { unread := written finalNewline lines, offered, ended := false } =
      turn mode testRepeat file
        { unread := []
          offered := offered ++ lines.flatMap (Line.nodes mode)
          ended := false } := by
  rw [Function.iterate_succ_apply', turns_lines finalNewline lines offered
    (Nat.le_refl _), List.drop_length, List.take_length]
  rfl

end Turns

section Passes

variable (mode : DbMode) {testRepeat : CString} (finalNewline : Bool)
  (lines : List Line)

/-- Without repetition the loop ends behind one pass. -/
theorem sfBarHandler_once (once : repeats testRepeat = false) {turns : Nat}
    (enough : lines.length < turns) :
    sfBarHandler mode testRepeat (written finalNewline lines) turns =
      { unread := []
        offered := lines.flatMap (Line.nodes mode)
        ended := true } := by
  rcases Nat.exists_eq_add_of_lt enough with ⟨more, rfl⟩
  have order : lines.length + more + 1 = more + (lines.length + 1) := by omega
  rw [sfBarHandler, Loop.start, order, Function.iterate_add_apply, turns_pass,
    turn_end, once, if_neg Bool.false_ne_true, turns_ended _ rfl,
    List.nil_append]

/-- With repetition each pass begins like the first. -/
theorem sfBarHandler_passes (again : repeats testRepeat = true) (passes : Nat) :
    sfBarHandler mode testRepeat (written finalNewline lines)
        (passes * (lines.length + 1)) =
      { unread := written finalNewline lines
        offered :=
          (List.replicate passes (lines.flatMap (Line.nodes mode))).flatten
        ended := false } := by
  induction passes with
  | zero => simp [sfBarHandler, Loop.start]
  | succ passes ih =>
      have order : (passes + 1) * (lines.length + 1) =
          (lines.length + 1) + passes * (lines.length + 1) := by
        rw [Nat.succ_mul, Nat.add_comm]
      rw [sfBarHandler] at ih
      rw [sfBarHandler, order, Function.iterate_add_apply, ih, turns_pass,
        turn_end, again, if_pos rfl, List.replicate_succ',
        List.flatten_append, List.flatten_singleton]

end Passes

/-- A message on the socket. -/
def socketMessage (code : CString) (number : IntNumeral) : List UInt8 :=
  33 :: code.bytes ++ Json.colon :: number.numeral.bytes

/-- An entry with a number and a message with the same code and number offer
the same node. -/
theorem receive_socketMessage (mode : DbMode) {entry : Entry}
    {number : IntNumeral} (given : entry.number = some number)
    (short : (socketMessage entry.code number).length < maxLogsize) :
    receive mode (socketMessage entry.code number) =
      some (.offered (entry.node mode)) := by
  have format : HasFormat (socketMessage entry.code number) entry.code
      number.numeral .none :=
    { bytes := by rw [LineBreak.bytes, List.append_nil, socketMessage]
      nonempty := entry.nonempty
      undivided := entry.undivided
      isInt := number.isInt }
  have nulFree : 0 ∉ socketMessage entry.code number := by
    have colon : 0 ∉ numberBytes (some number) :=
      numberBytes_plain _ (by decide) rfl (by decide) (by decide)
    rw [socketMessage, List.mem_append, List.mem_cons, not_or, not_or]
    exact ⟨⟨by decide, entry.code.nulFree⟩, colon⟩
  rw [receive_of_format short nulFree format, Entry.node, given, quantity]

/--
A file of entries and comments offers the nodes of its entries, in order, and
then ends; with repetition it offers them over and over again, as far as the
turns of the loop reach.  A message with the code and the number of an entry
offers the same node.
-/
theorem file_read_as_written (mode : DbMode) (finalNewline : Bool)
    (lines : List Line) :
    (∀ testRepeat, repeats testRepeat = false →
      ∀ turns, lines.length < turns →
        sfBarHandler mode testRepeat (written finalNewline lines) turns =
          { unread := []
            offered := lines.flatMap (Line.nodes mode)
            ended := true }) ∧
      (∀ testRepeat, repeats testRepeat = true →
        ∀ passes turns, turns ≤ lines.length →
          sfBarHandler mode testRepeat (written finalNewline lines)
              (turns + passes * (lines.length + 1)) =
            { unread := written finalNewline (lines.drop turns)
              offered :=
                (List.replicate passes
                  (lines.flatMap (Line.nodes mode))).flatten ++
                    (lines.take turns).flatMap (Line.nodes mode)
              ended := false }) ∧
        ∀ entry number, entry.number = some number →
          (socketMessage entry.code number).length < maxLogsize →
            receive mode (socketMessage entry.code number) =
              some (.offered (Entry.node mode entry)) := by
  refine ⟨?_, ?_, ?_⟩
  · intro testRepeat once turns enough
    exact sfBarHandler_once mode finalNewline lines once enough
  · intro testRepeat again passes turns few
    have passed := sfBarHandler_passes mode finalNewline lines again passes
    rw [sfBarHandler] at passed
    rw [sfBarHandler, Function.iterate_add_apply, passed,
      turns_lines finalNewline lines _ few]
  · intro entry number given short
    exact receive_socketMessage mode given short

end SmartFridge.TestFile
