import SmartFridge.Library.Chunks
import SmartFridge.Library.Numeral
import SmartFridge.Reader

/-!
# Socket mode

`sf_bar_handler` takes every chunk that it receives for a message of its own,
so that the nodes it offers to the queue depend on how the stream of messages
was divided.
-/

namespace SmartFridge.SocketMode

open SmartFridge.Library
open SmartFridge.Reader

/-- MAX_LOGSIZE. -/
abbrev maxLogsize : Nat := 65536

/-- The nodes that a chunk gives, which is one or none. -/
def chunkNodes (mode : DbMode) (chunk : List UInt8) : List ProductNode :=
  (socketNode mode (CString.ofBuffer chunk)).toList

/--
The nodes that `sf_bar_handler` offers to the id queue on a connection.  It
fails on a chunk that fills its buffer, whose terminator is written behind the
end.
-/
def sfBarHandler (mode : DbMode) :
    List (List UInt8) → Option (List ProductNode)
  | [] => some []
  | msg :: rest =>
      if msg.length < maxLogsize then
        (sfBarHandler mode rest).map fun nodes => chunkNodes mode msg ++ nodes
      else
        none

/-- A well-formed message of a client. -/
structure Message where
  code : CString
  number : Numeral
  nonempty : code ≠ .empty
  unmarked : 33 ∉ code.bytes
  undivided : Json.colon ∉ code.bytes
  isInt : number.IsInt

namespace Message

/-- The beginning of a message, up to the colon. -/
def header (message : Message) : List UInt8 :=
  33 :: message.code.bytes ++ [Json.colon]

/-- The message `!code:number`. -/
def bytes (message : Message) : List UInt8 :=
  message.header ++ message.number.bytes

/-- The node that a message stands for. -/
def node (mode : DbMode) (message : Message) : ProductNode :=
  { code := message.code, number := .ofInt message.number.value, mode }

end Message

/-- Messages in a row. -/
def stream (messages : List Message) : List UInt8 :=
  messages.flatMap Message.bytes

/-! ## The nodes of one chunk -/

theorem sfBarHandler_eq_some {mode : DbMode} {chunks : List (List UInt8)}
    {nodes : List ProductNode} :
    sfBarHandler mode chunks = some nodes ↔
      (∀ chunk ∈ chunks, chunk.length < maxLogsize) ∧
        chunks.flatMap (chunkNodes mode) = nodes := by
  induction chunks generalizing nodes with
  | nil => simp [sfBarHandler]
  | cons chunk rest ih =>
      rw [sfBarHandler, List.forall_mem_cons, List.flatMap_cons]
      by_cases short : chunk.length < maxLogsize
      · rw [if_pos short, Option.map_eq_some_iff]
        constructor
        · rintro ⟨later, handled, rfl⟩
          rcases ih.mp handled with ⟨shorts, rfl⟩
          exact ⟨⟨short, shorts⟩, rfl⟩
        · rintro ⟨⟨_, shorts⟩, rfl⟩
          exact ⟨_, ih.mpr ⟨shorts, rfl⟩, rfl⟩
      · simp [short]

/-- A chunk gives a node only if it begins with a mark. -/
theorem chunkNodes_length_le (mode : DbMode) (chunk : List UInt8) :
    (chunkNodes mode chunk).length ≤ (chunk.take 1).count 33 := by
  unfold chunkNodes socketNode
  split
  · next marked =>
      have counted : 1 ≤ (chunk.take 1).count 33 := by
        rcases List.head?_eq_some_iff.mp marked with ⟨rest, bytes⟩
        have whole := List.takeWhile_append_dropWhile (p := fun byte => byte ≠ 0)
          (l := chunk)
        change chunk.takeWhile (fun byte => byte ≠ 0) = 33 :: rest at bytes
        rw [bytes] at whole
        rw [← whole]
        simp
      cases (CString.ofBuffer chunk).cut Json.colon with
      | none => exact Nat.zero_le _
      | some parts => exact counted
  · exact Nat.zero_le _

theorem chunkNodes_of_unmarked (mode : DbMode) {chunk : List UInt8}
    (unmarked : 33 ∉ chunk) : chunkNodes mode chunk = [] := by
  have bound := chunkNodes_length_le mode chunk
  have absent : 33 ∉ chunk.take 1 :=
    fun member => unmarked (List.mem_of_mem_take member)
  rw [List.count_eq_zero_of_not_mem absent] at bound
  exact List.eq_nil_of_length_eq_zero (Nat.le_zero.mp bound)

/-- A chunk that gives as many nodes as it has marks has none behind its first
byte. -/
theorem aligned_of_counted {mode : DbMode} {chunk : List UInt8}
    (counted : chunk.count 33 ≤ (chunkNodes mode chunk).length) :
    33 ∉ chunk.tail := by
  have bound := chunkNodes_length_le mode chunk
  have parts : chunk.count 33 =
      (chunk.take 1).count 33 + chunk.tail.count 33 := by
    rw [← List.drop_one, ← List.count_append, List.take_append_drop]
  exact List.count_eq_zero.mp (by omega)

theorem nodes_length_le (mode : DbMode) (chunks : List (List UInt8)) :
    (chunks.flatMap (chunkNodes mode)).length ≤ chunks.flatten.count 33 := by
  induction chunks with
  | nil => exact Nat.le_refl _
  | cons chunk rest ih =>
      rw [List.flatMap_cons, List.length_append, List.flatten_cons,
        List.count_append]
      have first := chunkNodes_length_le mode chunk
      have within := (List.take_sublist 1 chunk).count_le 33
      omega

/-- If a stream gives as many nodes as it has marks, each of its chunks does. -/
theorem counted_of_flatten {mode : DbMode} {chunks : List (List UInt8)}
    (enough : chunks.flatten.count 33 ≤
      (chunks.flatMap (chunkNodes mode)).length) :
    ∀ chunk ∈ chunks, chunk.count 33 ≤ (chunkNodes mode chunk).length := by
  induction chunks with
  | nil => exact nofun
  | cons chunk rest ih =>
      rw [List.flatten_cons, List.count_append, List.flatMap_cons,
        List.length_append] at enough
      have restBound := nodes_length_le mode rest
      have first := chunkNodes_length_le mode chunk
      have within := (List.take_sublist 1 chunk).count_le 33
      rw [List.forall_mem_cons]
      exact ⟨by omega, ih (by omega)⟩

section Beginning

variable {message : Message} {chunk : List UInt8}

theorem Message.nulFree (message : Message) : 0 ∉ message.bytes := by
  have number := message.number.text.nulFree
  have code := message.code.nulFree
  simp only [Message.bytes, Message.header, List.mem_append, List.mem_cons,
    List.not_mem_nil, or_false, not_or]
  have mark : (0 : UInt8) ≠ 33 := by decide
  have colon : (0 : UInt8) ≠ 58 := by decide
  exact ⟨⟨⟨mark, code⟩, colon⟩, number⟩

theorem ofBuffer_of_begins (begins : chunk <+: message.bytes) :
    (CString.ofBuffer chunk).bytes = chunk :=
  CString.ofBuffer_of_nulFree fun member =>
    message.nulFree (begins.subset member)

/-- A beginning that does not reach the colon gives no node. -/
theorem chunkNodes_of_short (mode : DbMode) (begins : chunk <+: message.bytes)
    (short : ¬ message.header <+: chunk) : chunkNodes mode chunk = [] := by
  have within : chunk <+: 33 :: message.code.bytes := by
    rcases List.prefix_or_prefix_of_prefix begins
        (List.prefix_append message.header message.number.bytes) with
      inside | beyond
    · rcases List.prefix_concat_iff.mp inside with rfl | inside
      · exact absurd (List.prefix_refl _) short
      · exact inside
    · exact absurd beyond short
  have undivided : Json.colon ∉ (CString.ofBuffer chunk).bytes := by
    rw [ofBuffer_of_begins begins]
    intro member
    rcases List.mem_cons.mp (within.subset member) with mark | inCode
    · cases mark
    · exact message.undivided inCode
  rw [chunkNodes, socketNode, CString.cut_of_not_mem undivided, Option.map_none,
    ite_self]
  rfl

/-- A beginning that reaches the colon gives a node with what it has of the
number. -/
theorem chunkNodes_of_header (mode : DbMode) (begins : chunk <+: message.bytes)
    (reaches : message.header <+: chunk) :
    ∃ number : CString, chunk = message.header ++ number.bytes ∧
      number.bytes <+: message.number.bytes ∧
        chunkNodes mode chunk =
          [{ code := message.code, number := readNumber number, mode }] := by
  rcases reaches with ⟨rest, rfl⟩
  have within : rest <+: message.number.bytes :=
    (List.prefix_append_right_inj message.header).mp begins
  let number : CString :=
    ⟨rest, fun member => message.number.text.nulFree (within.subset member)⟩
  let marked : CString :=
    { bytes := 33 :: message.code.bytes
      nulFree := by
        rw [List.mem_cons, not_or]
        exact ⟨nofun, message.code.nulFree⟩ }
  have undivided : Json.colon ∉ marked.bytes := by
    rw [List.mem_cons, not_or]
    exact ⟨nofun, message.undivided⟩
  have bytes : (CString.ofBuffer (message.header ++ rest)).bytes =
      marked.bytes ++ Json.colon :: number.bytes := by
    rw [ofBuffer_of_begins begins]
    simp [Message.header, marked, number]
  have isMarked :
      (CString.ofBuffer (message.header ++ rest)).bytes.head? = some 33 := by
    rw [bytes]
    rfl
  refine ⟨number, rfl, within, ?_⟩
  rw [chunkNodes, socketNode, if_pos isMarked, CString.cut_of_append bytes undivided]
  rfl

/-- The first chunk of a message: all of it, or enough of it. -/
def Suffices (message : Message) (chunk : List UInt8) : Prop :=
  chunk = message.bytes ∨
    (message.number.value = 0 ∧ message.header <+: chunk)

theorem readNumber_eq {message : Message} {number : CString}
    (begins : number.bytes <+: message.number.bytes) :
    readNumber number = .ofInt message.number.value ↔
      number.bytes = message.number.bytes ∨ message.number.value = 0 := by
  rcases Numeral.strtol_prefix message.isInt begins with
    ⟨⟨lower, upper⟩, exact_⟩
  rcases message.isInt with ⟨valueLower, valueUpper⟩
  rw [← exact_]
  constructor
  · intro same
    have stays := congrArg Int32.toInt same
    rwa [readNumber, Int32.toInt_ofInt_of_le lower upper,
      Int32.toInt_ofInt_of_le valueLower valueUpper] at stays
  · intro same
    rw [readNumber, same]

/-- The beginnings of a message that give its node. -/
theorem chunkNodes_eq_iff (mode : DbMode) (begins : chunk <+: message.bytes) :
    chunkNodes mode chunk = [message.node mode] ↔ Suffices message chunk := by
  by_cases reaches : message.header <+: chunk
  · rcases chunkNodes_of_header mode begins reaches with
      ⟨number, rfl, within, nodes⟩
    rw [nodes, Suffices, Message.bytes, List.append_cancel_left_eq,
      and_iff_left reaches, ← readNumber_eq within]
    simp [Message.node]
  · rw [chunkNodes_of_short mode begins reaches]
    refine iff_of_false nofun ?_
    rintro (rfl | ⟨_, header⟩)
    · exact reaches (List.prefix_append _ _)
    · exact reaches header

end Beginning

/-! ## The nodes of a stream -/

/-- The chunks are those of the message alone, and the first gives its node. -/
def Delivers (message : Message) (chunks : List (List UInt8)) : Prop :=
  chunks.flatten = message.bytes ∧
    ∃ first rest, chunks = first :: rest ∧ Suffices message first

/--
No chunk fills the buffer, and every message comes in chunks of its own of
which the first gives its node.
-/
structure Separated (messages : List Message) (chunks : List (List UInt8)) :
    Prop where
  short : ∀ chunk ∈ chunks, chunk.length < maxLogsize
  grouped : ∃ groups, chunks = groups.flatten ∧
    List.Forall₂ Delivers messages groups

section Group

variable {message : Message} {first : List UInt8} {rest : List (List UInt8)}

theorem Message.bytes_eq (message : Message) :
    message.bytes =
      33 :: (message.code.bytes ++ Json.colon :: message.number.bytes) := by
  simp [Message.bytes, Message.header]

theorem Message.tail_unmarked (message : Message) :
    33 ∉ message.bytes.tail := by
  have number : 33 ∉ message.number.bytes :=
    message.number.not_mem_bytes rfl nofun nofun
  have colon : (33 : UInt8) ≠ Json.colon := nofun
  rw [message.bytes_eq, List.tail_cons, List.mem_append, List.mem_cons]
  rintro (inCode | mark | inNumber)
  · exact message.unmarked inCode
  · exact colon mark
  · exact number inNumber

theorem count_stream (messages : List Message) :
    (stream messages).count 33 = messages.length := by
  induction messages with
  | nil => rfl
  | cons message rest ih =>
      have tail := List.count_eq_zero_of_not_mem message.tail_unmarked
      rw [message.bytes_eq, List.tail_cons] at tail
      rw [stream, List.flatMap_cons, List.count_append, message.bytes_eq,
        List.count_cons_self, tail, ← stream, ih, List.length_cons,
        Nat.add_comm]

theorem rest_unmarked (flat : (first :: rest).flatten = message.bytes)
    (nonempty : first ≠ []) : ∀ chunk ∈ rest, 33 ∉ chunk := by
  intro chunk member mark
  rcases first with _ | ⟨byte, bytes⟩
  · exact nonempty rfl
  · apply message.tail_unmarked
    rw [← flat, List.flatten_cons, List.cons_append, List.tail_cons]
    exact List.mem_append_right bytes
      (List.mem_flatten.mpr ⟨chunk, member, mark⟩)

/-- Behind the first chunk of a message nothing gives a node. -/
theorem nodes_of_group (mode : DbMode)
    (flat : (first :: rest).flatten = message.bytes) (nonempty : first ≠ []) :
    (first :: rest).flatMap (chunkNodes mode) = chunkNodes mode first := by
  have silent : rest.flatMap (chunkNodes mode) = [] := by
    rw [List.flatMap_eq_nil_iff]
    intro chunk member
    exact chunkNodes_of_unmarked mode (rest_unmarked flat nonempty chunk member)
  rw [List.flatMap_cons, silent, List.append_nil]

theorem nonempty_of_suffices (suffices_ : Suffices message first) :
    first ≠ [] := by
  rintro rfl
  rcases suffices_ with whole | ⟨_, header⟩
  · rw [message.bytes_eq] at whole
    cases whole
  · cases List.prefix_nil.mp header

theorem nodes_of_delivers (mode : DbMode) {chunks : List (List UInt8)}
    (delivers : Delivers message chunks) :
    chunks.flatMap (chunkNodes mode) = [message.node mode] := by
  rcases delivers with ⟨flat, first, rest, rfl, suffices_⟩
  rw [nodes_of_group mode flat (nonempty_of_suffices suffices_)]
  exact (chunkNodes_eq_iff mode ⟨rest.flatten, flat⟩).mpr suffices_

end Group

/-- Messages in chunks of their own give their nodes in order. -/
theorem nodes_of_groups (mode : DbMode) {messages : List Message}
    {groups : List (List (List UInt8))}
    (delivered : List.Forall₂ Delivers messages groups) :
    groups.flatten.flatMap (chunkNodes mode) =
      messages.map (Message.node mode) := by
  induction delivered with
  | nil => rfl
  | cons delivers _ ih =>
      rw [List.flatten_cons, List.flatMap_append, ih,
        nodes_of_delivers mode delivers]
      rfl

theorem stream_head (messages : List Message) :
    ∀ byte ∈ (stream messages).head?, byte = 33 := by
  cases messages with
  | nil => exact nofun
  | cons message rest =>
      rw [stream, List.flatMap_cons, message.bytes_eq]
      rintro byte ⟨⟩
      rfl

/-- If all the nodes arrive, every message comes in chunks of its own. -/
theorem groups_of_nodes {mode : DbMode} {messages : List Message}
    {chunks : List (List UInt8)} (nonempty : [] ∉ chunks)
    (counted : ∀ chunk ∈ chunks,
      chunk.count 33 ≤ (chunkNodes mode chunk).length)
    (flat : chunks.flatten = stream messages)
    (nodes : chunks.flatMap (chunkNodes mode) =
      messages.map (Message.node mode)) :
    ∃ groups, chunks = groups.flatten ∧
      List.Forall₂ Delivers messages groups := by
  induction messages generalizing chunks with
  | nil =>
      have empty := List.flatten_eq_nil_iff.mp flat
      have none_ : chunks = [] := by
        apply List.eq_nil_iff_forall_not_mem.mpr
        intro chunk member
        exact nonempty (empty chunk member ▸ member)
      exact ⟨[], none_, .nil⟩
  | cons message later ih =>
      rw [stream, List.flatMap_cons, ← stream] at flat
      rcases split_of_aligned nonempty
          (fun chunk member => aligned_of_counted (counted chunk member))
          flat (stream_head later) with
        ⟨group, behind, rfl, flatGroup, flatBehind⟩
      rcases group with _ | ⟨first, rest⟩
      · rw [message.bytes_eq] at flatGroup
        cases flatGroup
      · have firstNonempty : first ≠ [] := by
          rintro rfl
          exact nonempty List.mem_cons_self
        have begins : first <+: message.bytes := ⟨rest.flatten, flatGroup⟩
        have marked : 1 ≤ first.count 33 := by
          rcases begins with ⟨more, whole⟩
          rw [message.bytes_eq] at whole
          rcases first with _ | ⟨byte, bytes⟩
          · exact absurd rfl firstNonempty
          · have isMark : byte = 33 := (List.cons.inj whole).1
            simp [isMark]
        have given := marked.trans (counted first List.mem_cons_self)
        rw [List.flatMap_append, nodes_of_group mode flatGroup firstNonempty,
          List.map_cons] at nodes
        have isNode : chunkNodes mode first = [message.node mode] ∧
            behind.flatMap (chunkNodes mode) =
              later.map (Message.node mode) := by
          rcases made : chunkNodes mode first with _ | ⟨node, more⟩
          · rw [made] at given
            cases given
          · have single := chunkNodes_length_le mode first
            have atMost := (first.take 1).count_le_length (a := 33)
            rw [made] at nodes single
            rw [List.length_take] at atMost
            rw [List.length_cons] at single
            have alone : more = [] := List.eq_nil_of_length_eq_zero (by omega)
            subst alone
            rcases List.cons.inj nodes with ⟨rfl, others⟩
            exact ⟨rfl, others⟩
        rcases ih (fun member => nonempty (List.mem_append_right _ member))
            (fun chunk member =>
              counted chunk (List.mem_append_right _ member))
            flatBehind isNode.2 with ⟨groups, rfl, delivered⟩
        exact ⟨(first :: rest) :: groups, rfl, .cons
          ⟨flatGroup, first, rest, rfl,
            (chunkNodes_eq_iff mode begins).mp isNode.1⟩ delivered⟩

/--
The id queue is offered one node for each message, in order, exactly if the
chunks separate the messages.
-/
theorem offered_iff (mode : DbMode) {messages : List Message}
    {chunks : List (List UInt8)}
    (chunking : Chunking maxLogsize (stream messages) chunks) :
    sfBarHandler mode chunks = some (messages.map (Message.node mode)) ↔
      Separated messages chunks := by
  rw [sfBarHandler_eq_some]
  constructor
  · rintro ⟨short, nodes⟩
    refine ⟨short, groups_of_nodes chunking.nonempty
      (counted_of_flatten ?_) chunking.flatten nodes⟩
    rw [chunking.flatten, count_stream, nodes, List.length_map]
  · rintro ⟨short, groups, rfl, delivered⟩
    exact ⟨short, nodes_of_groups mode delivered⟩

/-- Two pieces of milk. -/
def milkMessage : Message where
  code := .lit "8480017439482"
  number :=
    { sign := []
      digits := [50]
      signed := .inl rfl
      nonempty := nofun
      allDigits := List.forall_mem_singleton.mpr rfl }
  nonempty := by decide
  unmarked := by decide
  undivided := by decide
  isInt := ⟨by decide, by decide⟩

/-- Two messages, of which the second arrives in two chunks. -/
def milkChunks : List (List UInt8) :=
  [milkMessage.bytes, milkMessage.bytes.take 5, milkMessage.bytes.drop 5]

theorem offered_iff_milk :
    sfBarHandler .add milkChunks =
        some ([milkMessage, milkMessage].map (Message.node .add)) ↔
      Separated [milkMessage, milkMessage] milkChunks := by
  refine offered_iff .add ⟨?_, by decide, by decide⟩
  simp [stream, milkChunks]

/-- Of two messages that arrive in one chunk, the second is lost. -/
theorem second_message_lost :
    ¬ ∀ (mode : DbMode) (messages : List Message)
        (chunks : List (List UInt8)),
        Chunking maxLogsize (stream messages) chunks →
          sfBarHandler mode chunks =
            some (messages.map (Message.node mode)) := by
  intro always
  have offered := always .add [milkMessage, milkMessage]
    [stream [milkMessage, milkMessage]]
    ⟨by simp, by decide, by decide⟩
  revert offered
  decide

end SmartFridge.SocketMode
