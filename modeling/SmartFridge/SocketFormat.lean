import SmartFridge.SocketMode

/-!
# The format of a socket message

A message that comes in one chunk has the form `!code:number`.  The recogniser
looks for the mark and for a colon, and leaves the number to `strtol`, which
takes whatever it is given: a message that has both is never refused.
-/

namespace SmartFridge.SocketFormat

open SmartFridge.Library
open SmartFridge.Reader
open SmartFridge.SocketMode

/-- What becomes of a message: its node is offered to the id queue, or
SOCKET_FORMAT_ERROR is logged. -/
inductive Reception where
  | offered (node : ProductNode)
  | socketFormatError (msg : CString)
deriving DecidableEq

/-- What the loop of `sf_bar_handler` makes of a chunk, unless it fills the
buffer and the terminator is written behind the end. -/
def receive (mode : DbMode) (msg : List UInt8) : Option Reception :=
  if msg.length < maxLogsize then
    match socketNode mode (CString.ofBuffer msg) with
    | some node => some (.offered node)
    | none => some (.socketFormatError (CString.ofBuffer msg))
  else
    none

/-- The node that was offered. -/
def Reception.nodes : Reception → List ProductNode
  | .offered node => [node]
  | .socketFormatError _ => []

/-- A connection with one chunk offers what the chunk gives. -/
theorem sfBarHandler_singleton (mode : DbMode) (msg : List UInt8) :
    sfBarHandler mode [msg] = (receive mode msg).map Reception.nodes := by
  unfold sfBarHandler receive chunkNodes
  split
  · cases socketNode mode (CString.ofBuffer msg) with
    | none => rfl
    | some node => rfl
  · rfl

/-- What may end a message: nothing or a line break. -/
inductive LineBreak where
  | none
  | newline
  | carriageReturn

/-- The characters of a line break. -/
def LineBreak.bytes : LineBreak → List UInt8
  | .none => []
  | .newline => [10]
  | .carriageReturn => [13, 10]

/-- The message is a mark, a code without a colon, a colon and an `int`. -/
structure HasFormat (msg : List UInt8) (code : CString) (number : Numeral)
    (lineBreak : LineBreak) : Prop where
  bytes : msg =
    33 :: code.bytes ++ Json.colon :: (number.bytes ++ lineBreak.bytes)
  nonempty : code ≠ .empty
  undivided : Json.colon ∉ code.bytes
  isInt : number.IsInt

/-- The message has the documented format. -/
def WellFormed (msg : List UInt8) : Prop :=
  ∃ code number lineBreak, HasFormat msg code number lineBreak

/-- Messages of the format give their code and number, and all others are
refused. -/
structure Recognised (mode : DbMode) (msg : List UInt8)
    (reception : Option Reception) : Prop where
  accepted : ∀ code number lineBreak, HasFormat msg code number lineBreak →
    reception = some
      (.offered { code, number := .ofInt number.value, mode })
  rejected : ¬ WellFormed msg →
    reception = some (.socketFormatError (CString.ofBuffer msg))

/-- The message has a mark and, somewhere behind it, a colon. -/
def Divided (msg : List UInt8) : Prop :=
  msg.head? = some 33 ∧ Json.colon ∈ msg

theorem LineBreak.ends (lineBreak : LineBreak) :
    ∀ byte ∈ lineBreak.bytes.head?, CString.isDigit byte = false := by
  intro byte first
  cases lineBreak with
  | none => cases first
  | newline =>
      cases first
      rfl
  | carriageReturn =>
      cases first
      rfl

/-- A number that fits in an `int` is read as it was written. -/
theorem readNumber_followed {number : Numeral} (isInt : number.IsInt)
    {text : CString} {rest : List UInt8} (bytes : text.bytes = number.bytes ++ rest)
    (ends : ∀ byte ∈ rest.head?, CString.isDigit byte = false) :
    readNumber text = .ofInt number.value := by
  have small := isInt.small
  rw [readNumber, Numeral.strtol_followed number bytes ends (by omega)]

/-- The code and the number of a message `!code:number` with something behind
it. -/
theorem socketNode_eq (mode : DbMode) {msg code : CString} {number : Numeral}
    {rest : List UInt8} (undivided : Json.colon ∉ code.bytes)
    (isInt : number.IsInt)
    (bytes : msg.bytes =
      33 :: code.bytes ++ Json.colon :: (number.bytes ++ rest))
    (ends : ∀ byte ∈ rest.head?, CString.isDigit byte = false) :
    socketNode mode msg =
      some { code, number := .ofInt number.value, mode } := by
  let marked : CString :=
    { bytes := 33 :: code.bytes
      nulFree := by
        rw [List.mem_cons, not_or]
        exact ⟨by decide, code.nulFree⟩ }
  let text : CString :=
    { bytes := number.bytes ++ rest
      nulFree := by
        intro member
        apply msg.nulFree
        rw [bytes]
        exact List.mem_append_right _ (List.mem_cons_of_mem _ member) }
  have unmarked : Json.colon ∉ marked.bytes := by
    rw [List.mem_cons, not_or]
    exact ⟨by decide, undivided⟩
  have isMarked : msg.bytes.head? = some 33 := by
    rw [bytes]
    rfl
  have cut : msg.cut Json.colon = some (marked, text) :=
    CString.cut_of_append bytes unmarked
  rw [socketNode, if_pos isMarked, cut, Option.map_some,
    readNumber_followed isInt (rfl : text.bytes = _) ends]
  rfl

section Recognition

variable {mode : DbMode} {msg : List UInt8}

theorem receive_of_format (short : msg.length < maxLogsize) (nulFree : 0 ∉ msg)
    {code : CString} {number : Numeral} {lineBreak : LineBreak}
    (format : HasFormat msg code number lineBreak) :
    receive mode msg = some
      (.offered { code, number := .ofInt number.value, mode }) := by
  have bytes : (CString.ofBuffer msg).bytes =
      33 :: code.bytes ++ Json.colon :: (number.bytes ++ lineBreak.bytes) := by
    rw [CString.ofBuffer_of_nulFree nulFree, format.bytes]
  rw [receive, if_pos short,
    socketNode_eq mode format.undivided format.isInt bytes lineBreak.ends]

/-- What has a mark and a colon is accepted, and nothing else is. -/
theorem receive_eq_error_iff (short : msg.length < maxLogsize)
    (nulFree : 0 ∉ msg) :
    receive mode msg = some (.socketFormatError (CString.ofBuffer msg)) ↔
      ¬ Divided msg := by
  have bytes := CString.ofBuffer_of_nulFree nulFree
  have parts : Divided msg ↔ (CString.ofBuffer msg).bytes.head? = some 33 ∧
      Json.colon ∈ (CString.ofBuffer msg).bytes := by
    rw [bytes]
    exact Iff.rfl
  rw [receive, if_pos short, socketNode, parts]
  by_cases marked : (CString.ofBuffer msg).bytes.head? = some 33
  · rw [if_pos marked]
    by_cases divided : Json.colon ∈ (CString.ofBuffer msg).bytes
    · rcases CString.exists_cut divided with ⟨code, number, cut, undivided⟩
      rw [CString.cut_of_append cut undivided]
      simp [marked, divided]
    · rw [CString.cut_of_not_mem divided]
      simp [divided]
  · simp [marked]

/--
A message without zero bytes is recognised by its format exactly if it is
shorter than the buffer and, once it has a mark and a colon, has the format.
-/
theorem recognised_iff (mode : DbMode) {msg : List UInt8} (nulFree : 0 ∉ msg) :
    Recognised mode msg (receive mode msg) ↔
      msg.length < maxLogsize ∧ (Divided msg → WellFormed msg) := by
  constructor
  · intro recognised
    have short : msg.length < maxLogsize := by
      by_contra long
      have nothing : receive mode msg = none := if_neg long
      rw [nothing] at recognised
      by_cases wellFormed : WellFormed msg
      · rcases wellFormed with ⟨code, number, lineBreak, format⟩
        cases recognised.accepted code number lineBreak format
      · cases recognised.rejected wellFormed
    refine ⟨short, fun divided => ?_⟩
    by_contra malformed
    exact (receive_eq_error_iff short nulFree).mp
      (recognised.rejected malformed) divided
  · rintro ⟨short, formed⟩
    exact ⟨fun _ _ _ format => receive_of_format short nulFree format,
      fun malformed => (receive_eq_error_iff short nulFree).mpr
        fun divided => malformed (formed divided)⟩

end Recognition

theorem recognised_iff_milk :
    Recognised .add milkMessage.bytes (receive .add milkMessage.bytes) ↔
      milkMessage.bytes.length < maxLogsize ∧
        (Divided milkMessage.bytes → WellFormed milkMessage.bytes) :=
  recognised_iff .add milkMessage.nulFree

/-- A mark and a colon alone give a node with an empty code and no number. -/
theorem empty_code_offered :
    ¬ ∀ (mode : DbMode) (msg : List UInt8), 0 ∉ msg →
        msg.length ≤ maxLogsize → Recognised mode msg (receive mode msg) := by
  intro always
  have recognised := always .add [33, 58] (by decide) (by decide)
  have malformed : ¬ WellFormed [33, 58] := by
    rintro ⟨code, number, lineBreak, format⟩
    have lengths := congrArg List.length format.bytes
    have digits := List.length_pos_of_ne_nil number.nonempty
    rw [Numeral.bytes] at lengths
    simp only [List.length_append, List.length_cons, List.length_nil] at lengths
    omega
  have refused := recognised.rejected malformed
  revert refused
  decide

end SmartFridge.SocketFormat
