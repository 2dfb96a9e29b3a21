import SmartFridge.Atomicity
import SmartFridge.MessageParts
import SmartFridge.ReaderRequests
import SmartFridge.SocketMode

/-!
# The segments of a message

`start_daemon` decodes whatever a call of `recv` returns as a message of its
own.  It never joins two chunks, so that a message of the reader has an effect
only if it arrives in one.
-/

namespace SmartFridge.Segmentation

open SmartFridge.Library
open SmartFridge.ProductDecoder
open SmartFridge.MessageParts
open SmartFridge.Schema
open SmartFridge.Daemon
open SmartFridge.Atomicity
open SmartFridge.SocketMode (maxLogsize)

/-- What `recv` returns, and the result that `database_send` would have then. -/
structure Chunk where
  bytes : List UInt8
  sent : Int

/--
The loop of `start_daemon` on a connection.  It fails on a chunk that fills its
buffer, whose terminator is written behind the end, and on a fault.
-/
def serve (internalHeader : CString) (parse : CString → Option Json) :
    List Chunk → State → Option State
  | [], state => some state
  | chunk :: rest, state =>
      if chunk.bytes.length < maxLogsize then
        match msgDecoder internalHeader parse chunk.sent
            (CString.ofBuffer chunk.bytes) state with
        | none => none
        | some (result, state) =>
            if result = continueIt then
              some state
            else if result ≠ 0 then
              serve internalHeader parse rest (state.sfError .decoderError)
            else
              serve internalHeader parse rest state
      else
        none

/-- The call that a text behind the header leads to. -/
def asked (parse : CString → Option Json) (text : CString) : Option Call :=
  match sfPrDecoder parse text with
  | some (result, some prDec) =>
      some (if result = deletionReq then .dbRemove prDec else .dbInsert prDec)
  | _ => none

/-- A chunk that is a message of its own: it gives a product or a fault. -/
def OwnMessage (internalHeader : CString) (parse : CString → Option Json)
    (chunk : Chunk) : Prop :=
  ∃ part, CString.ofBuffer chunk.bytes = internalHeader ++ part ∧
    ¬ Idle parse part

/-- The operation that a text leads to leaves the tables as they are. -/
def Ineffective (parse : CString → Option Json) (text : CString)
    (state : State) : Prop :=
  ∀ call, asked parse text = some call → LeavesTables call state

/--
The division of a message makes no difference: there is one chunk, or no chunk
is a message of its own and the message leaves the tables as well.
-/
def Unnoticed (internalHeader : CString) (parse : CString → Option Json)
    (text : CString) (chunks : List Chunk) (state : State) : Prop :=
  chunks.length = 1 ∨
    (∀ chunk ∈ chunks, ¬ OwnMessage internalHeader parse chunk) ∧
      sfPrDecoder parse text ≠ none ∧ Ineffective parse text state

/-! ## Chunks on their own -/

section Chunks

variable {internalHeader : CString} {parse : CString → Option Json}

/-- A message that gives no product leaves the tables. -/
theorem msgDecoder_idle {msg : CString}
    (idle : ∀ text, msg = internalHeader ++ text → Idle parse text)
    (sent : Int) (state : State) :
    ∃ result next,
      msgDecoder internalHeader parse sent msg state = some (result, next) ∧
        next.tables = state.tables := by
  unfold msgDecoder
  by_cases headed : internalHeader.bytes <+: msg.bytes
  · rcases idle _ (CString.eq_append_drop headed) with ⟨result, decoded⟩
    rw [if_pos headed, decoded]
    exact ⟨1, state, rfl, rfl⟩
  · rw [if_neg headed]
    by_cases synced : dbSyncHeader.bytes <+: msg.bytes
    · rw [if_pos synced]
      by_cases failed : sent = 0
      · exact ⟨continueIt, state, by simp [failed], rfl⟩
      · exact ⟨1, state.sfError .dbCopySentError, by simp [failed], rfl⟩
    · exact ⟨1, state.sfError .unknownMsgFormat, by simp [synced], rfl⟩

/-- A whole message has the effect of the call it leads to. -/
theorem msgDecoder_whole {text : CString}
    (returns : sfPrDecoder parse text ≠ none) (sent : Int) (state : State) :
    ∃ result next,
      msgDecoder internalHeader parse sent (internalHeader ++ text) state =
          some (result, next) ∧
        result ≠ continueIt ∧
        (next.tables = state.tables ↔ Ineffective parse text state) := by
  rcases Option.ne_none_iff_exists'.mp returns with
    ⟨⟨retval, decoded⟩, decodes⟩
  have one : (1 : Int) ≠ continueIt := nofun
  have zero : (0 : Int) ≠ continueIt := nofun
  unfold msgDecoder
  rw [if_pos ⟨text.bytes, rfl⟩, CString.append_drop, decodes]
  cases decoded with
  | none =>
      refine ⟨1, state, rfl, one, iff_of_true rfl fun call isAsked => ?_⟩
      simp [asked, decodes] at isAsked
  | some prDec =>
      -- The call is the one of the operation that the result code selects.
      have effect : ∀ call : Call, asked parse text = some call →
          ((call.perform state).2.tables = state.tables ↔
            Ineffective parse text state) := by
        intro call isAsked
        rw [perform_unchanged_iff]
        constructor
        · intro unchanged other isOther
          cases isAsked.symm.trans isOther
          exact unchanged
        · intro ineffective
          exact ineffective call isAsked
      by_cases removal : retval = deletionReq
      · have isAsked : asked parse text = some (.dbRemove prDec) := by
          simp [asked, decodes, removal]
        simp only [if_pos removal]
        by_cases failed : (dbRemove prDec state).1 = 0
        · exact ⟨0, (dbRemove prDec state).2, by simp [failed], zero,
            effect _ isAsked⟩
        · exact ⟨1, (dbRemove prDec state).2.sfError .productInsertError,
            by simp [failed], one, effect _ isAsked⟩
      · have isAsked : asked parse text = some (.dbInsert prDec) := by
          simp [asked, decodes, removal]
        simp only [if_neg removal]
        by_cases failed : (dbInsert prDec state).1 = 0
        · exact ⟨0, (dbInsert prDec state).2, by simp [failed], zero,
            effect _ isAsked⟩
        · exact ⟨1, (dbInsert prDec state).2.sfError .productRemoveError,
            by simp [failed], one, effect _ isAsked⟩

/-- Behind the header, the result of `database_send` is not asked for. -/
theorem msgDecoder_of_headed {msg : CString}
    (headed : internalHeader.bytes <+: msg.bytes) (sent other : Int)
    (state : State) :
    msgDecoder internalHeader parse sent msg state =
      msgDecoder internalHeader parse other msg state := by
  unfold msgDecoder
  rw [if_pos headed, if_pos headed]

theorem serve_of_headed {bytes : List UInt8}
    (headed : internalHeader.bytes <+: (CString.ofBuffer bytes).bytes)
    (sent other : Int) (state : State) :
    serve internalHeader parse [⟨bytes, sent⟩] state =
      serve internalHeader parse [⟨bytes, other⟩] state := by
  simp only [serve, msgDecoder_of_headed headed sent other]

theorem serve_cons {chunk : Chunk} (rest : List Chunk) {state next : State}
    {result : Int} (short : chunk.bytes.length < maxLogsize)
    (decoded : msgDecoder internalHeader parse chunk.sent
      (CString.ofBuffer chunk.bytes) state = some (result, next)) :
    serve internalHeader parse (chunk :: rest) state =
      if result = continueIt then
        some next
      else if result ≠ 0 then
        serve internalHeader parse rest (next.sfError .decoderError)
      else
        serve internalHeader parse rest next := by
  rw [serve, if_pos short, decoded]

/-- Chunks without a message leave the tables, by induction on them. -/
theorem serve_quiet {chunks : List Chunk}
    (short : ∀ chunk ∈ chunks, chunk.bytes.length < maxLogsize)
    (quiet : ∀ chunk ∈ chunks, ¬ OwnMessage internalHeader parse chunk)
    (state : State) :
    ∃ next, serve internalHeader parse chunks state = some next ∧
      next.tables = state.tables := by
  induction chunks generalizing state with
  | nil => exact ⟨state, rfl, rfl⟩
  | cons chunk rest ih =>
      rcases List.forall_mem_cons.mp short with ⟨chunkShort, restShort⟩
      rcases List.forall_mem_cons.mp quiet with ⟨chunkQuiet, restQuiet⟩
      have chunkIdle : ∀ text,
          CString.ofBuffer chunk.bytes = internalHeader ++ text →
            Idle parse text := by
        intro text headed
        by_contra own
        exact chunkQuiet ⟨text, headed, own⟩
      rcases msgDecoder_idle chunkIdle chunk.sent state with
        ⟨result, next, decoded, tables⟩
      rw [serve_cons rest chunkShort decoded]
      split_ifs
      · exact ⟨next, rfl, tables⟩
      · rcases ih restShort restQuiet (next.sfError .decoderError) with
          ⟨last, served, same⟩
        exact ⟨last, served, same.trans tables⟩
      · rcases ih restShort restQuiet next with ⟨last, served, same⟩
        exact ⟨last, served, same.trans tables⟩

/-- A message in one chunk. -/
theorem serve_whole {text : CString} (returns : sfPrDecoder parse text ≠ none)
    (fits : (internalHeader ++ text).bytes.length < maxLogsize)
    (sent : Int) (state : State) :
    ∃ next,
      serve internalHeader parse [⟨(internalHeader ++ text).bytes, sent⟩]
          state = some next ∧
        (next.tables = state.tables ↔ Ineffective parse text state) := by
  rcases msgDecoder_whole returns sent state with
    ⟨result, next, decoded, goes, effect⟩
  rw [← CString.ofBuffer_bytes (internalHeader ++ text)] at decoded
  rw [serve_cons [] fits decoded, if_neg goes]
  split_ifs
  · exact ⟨next.sfError .decoderError, rfl, effect⟩
  · exact ⟨next, rfl, effect⟩

/-- A message that stops the decoder stops the loop. -/
theorem serve_whole_of_fault {text : CString}
    (fault : sfPrDecoder parse text = none) (sent : Int) (state : State) :
    serve internalHeader parse [⟨(internalHeader ++ text).bytes, sent⟩] state =
      none := by
  have stops : msgDecoder internalHeader parse sent (internalHeader ++ text)
      state = none := by
    rw [msgDecoder, if_pos ⟨text.bytes, rfl⟩, CString.append_drop, fault]
  simp only [serve, CString.ofBuffer_bytes, stops, ite_self]

end Chunks

/-! ## Chunks of one message -/

section Message

variable {internalHeader text : CString} {chunks : List Chunk}
  (chunking : Chunking maxLogsize (internalHeader ++ text).bytes
    (chunks.map Chunk.bytes))
include chunking

/-- A chunk of a message holds no zero byte. -/
theorem ofBuffer_chunk {chunk : Chunk} (present : chunk ∈ chunks) :
    (CString.ofBuffer chunk.bytes).bytes = chunk.bytes := by
  apply CString.ofBuffer_of_nulFree
  intro member
  exact (internalHeader ++ text).nulFree
    (chunking.mem_stream (List.mem_map_of_mem present) member)

/-- What follows the header in a chunk is a part of the message's text. -/
theorem part_of_chunk {before after : List Chunk} {chunk : Chunk}
    (split : chunks = before ++ chunk :: after) {part : CString}
    (headed : CString.ofBuffer chunk.bytes = internalHeader ++ part) :
    ∃ earlier later, text.bytes = earlier ++ part.bytes ++ later ∧
      (before ≠ [] → earlier ≠ []) ∧ (after ≠ [] → later ≠ []) := by
  have present : chunk ∈ chunks := by simp [split]
  have bytes : chunk.bytes = internalHeader.bytes ++ part.bytes := by
    rw [← ofBuffer_chunk chunking present, headed]
    rfl
  have stream := chunking.flatten
  rw [split, List.map_append, List.map_cons, List.flatten_append,
    List.flatten_cons, bytes, CString.bytes_append] at stream
  -- The header of the message and that of the chunk start the same bytes.
  have begins : internalHeader.bytes <+:
      (before.map Chunk.bytes).flatten ++ internalHeader.bytes := by
    refine List.prefix_of_prefix_length_le
      (List.prefix_append internalHeader.bytes text.bytes) ?_ (by simp)
    rw [← stream]
    exact ⟨part.bytes ++ (after.map Chunk.bytes).flatten, by simp⟩
  rcases begins with ⟨earlier, shifted⟩
  refine ⟨earlier, (after.map Chunk.bytes).flatten, ?_, ?_, ?_⟩
  · have whole : internalHeader.bytes ++ text.bytes =
        internalHeader.bytes ++
          (earlier ++ part.bytes ++ (after.map Chunk.bytes).flatten) := by
      calc
        internalHeader.bytes ++ text.bytes =
            (before.map Chunk.bytes).flatten ++ internalHeader.bytes ++
              part.bytes ++ (after.map Chunk.bytes).flatten := by
          rw [← stream]
          simp
        _ = internalHeader.bytes ++ earlier ++ part.bytes ++
              (after.map Chunk.bytes).flatten := by
          rw [shifted]
        _ = _ := by
          simp
    exact List.append_cancel_left whole
  · rintro nonempty rfl
    have length := congrArg List.length shifted
    have within : before.map Chunk.bytes ⊆ chunks.map Chunk.bytes := by
      simp [split]
    have positive := List.length_pos_iff.mpr
      (chunking.flatten_ne_nil within (List.map_eq_nil_iff.not.mpr nonempty))
    simp only [List.length_append, List.length_nil] at length
    omega
  · intro nonempty
    have within : after.map Chunk.bytes ⊆ chunks.map Chunk.bytes := by
      intro bytes member
      simp [split, List.mem_map.mp member]
    exact chunking.flatten_ne_nil within (List.map_eq_nil_iff.not.mpr nonempty)

/-- If there are several, no chunk of an indivisible message is a message. -/
theorem quiet_of_indivisible {parse : CString → Option Json}
    (indivisible : Indivisible parse text) (several : chunks.length ≠ 1) :
    ∀ chunk ∈ chunks, ¬ OwnMessage internalHeader parse chunk := by
  rintro chunk present ⟨part, headed, own⟩
  rcases List.append_of_mem present with ⟨before, after, split⟩
  rcases part_of_chunk chunking split headed with
    ⟨earlier, later, bytes, beforePart, afterPart⟩
  refine own (indivisible earlier part later bytes ?_)
  by_contra alone
  rcases not_or.mp alone with ⟨notEarlier, notLater⟩
  have first : before = [] := not_not.mp fun left => notEarlier (beforePart left)
  have last : after = [] := not_not.mp fun left => notLater (afterPart left)
  exact several (by rw [split, first, last]; rfl)

section Same

variable {parse : CString → Option Json}

/-- What `database_send` would return does not matter for a single chunk. -/
theorem serve_single (single : chunks.length = 1) (sent : Int)
    (state : State) :
    serve internalHeader parse chunks state =
      serve internalHeader parse [⟨(internalHeader ++ text).bytes, sent⟩]
        state := by
  rcases List.length_eq_one_iff.mp single with ⟨⟨bytes, other⟩, rfl⟩
  have isWhole : bytes = (internalHeader ++ text).bytes := by
    simpa using chunking.flatten
  have headed : internalHeader.bytes <+: (CString.ofBuffer bytes).bytes := by
    rw [isWhole, CString.ofBuffer_bytes]
    exact List.prefix_append _ _
  rw [← isWhole, serve_of_headed headed other sent]

/-- Where no chunk is a message, the message must not have an effect either. -/
theorem quiet_same_iff
    (fits : (internalHeader ++ text).bytes.length < maxLogsize)
    (quiet : ∀ chunk ∈ chunks, ¬ OwnMessage internalHeader parse chunk)
    (sent : Int) (state : State) :
    (serve internalHeader parse chunks state).map State.tables =
        (serve internalHeader parse [⟨(internalHeader ++ text).bytes, sent⟩]
          state).map State.tables ↔
      sfPrDecoder parse text ≠ none ∧ Ineffective parse text state := by
  have short : ∀ chunk ∈ chunks, chunk.bytes.length < maxLogsize := by
    intro chunk present
    exact (chunking.length_le (List.mem_map_of_mem present)).trans_lt fits
  rcases serve_quiet short quiet state with ⟨next, divided, tables⟩
  by_cases fault : sfPrDecoder parse text = none
  · rw [divided, serve_whole_of_fault fault]
    simp [fault]
  · rcases serve_whole fault fits sent state with ⟨whole, served, effect⟩
    rw [divided, served, Option.map_some, Option.map_some, Option.some.injEq,
      tables, eq_comm, effect, and_iff_right fault]

end Same

end Message

section Sent

variable {internalHeader text : CString}
  (fits : (internalHeader ++ text).bytes.length < maxLogsize)
  {chunks : List Chunk}
  (chunking : Chunking maxLogsize (internalHeader ++ text).bytes
    (chunks.map Chunk.bytes))
include fits chunking

/-- A message of the reader has to arrive in one chunk to have an effect. -/
theorem sent_same_iff {raw : UInt8 → Bool}
    (printable : ∀ byte, 32 ≤ byte → raw byte = true)
    {parse : CString → Option Json} (objects : ReadsObjects raw parse text)
    (sends : Sends raw text) (sent : Int) (state : State) :
    (serve internalHeader parse chunks state).map State.tables =
        (serve internalHeader parse [⟨(internalHeader ++ text).bytes, sent⟩]
          state).map State.tables ↔
      chunks.length = 1 ∨ Ineffective parse text state := by
  by_cases single : chunks.length = 1
  · rw [serve_single chunking single sent]
    exact iff_of_true rfl (.inl single)
  · have returns := sends.returns printable objects
    have quiet := quiet_of_indivisible chunking
      (sends.indivisible printable objects) single
    rw [quiet_same_iff chunking fits quiet, and_iff_right returns,
      or_iff_right single]

/--
Whatever parser is used, the chunks of a message have the effect of the whole
if there is one of them, or if none of them is a message and the whole changes
nothing.  Otherwise they have another effect, unless one of them is a message.
A text that the reader sends has no such chunk where the parser takes an object
only where one is written.
-/
theorem segments_same (parse : CString → Option Json) (sent : Int)
    (state : State) :
    (Unnoticed internalHeader parse text chunks state →
        (serve internalHeader parse chunks state).map State.tables =
          (serve internalHeader parse
            [⟨(internalHeader ++ text).bytes, sent⟩] state).map
              State.tables) ∧
      ((serve internalHeader parse chunks state).map State.tables =
          (serve internalHeader parse
            [⟨(internalHeader ++ text).bytes, sent⟩] state).map
              State.tables →
        Unnoticed internalHeader parse text chunks state ∨
          (∃ chunk ∈ chunks, OwnMessage internalHeader parse chunk) ∧
            ∀ raw : UInt8 → Bool, (∀ byte, 32 ≤ byte → raw byte = true) →
              ReadsObjects raw parse text → ¬ Sends raw text) := by
  constructor
  · rintro (single | ⟨quiet, effect⟩)
    · rw [serve_single chunking single sent]
    · exact (quiet_same_iff chunking fits quiet sent state).mpr effect
  · intro same
    by_cases quiet : ∀ chunk ∈ chunks, ¬ OwnMessage internalHeader parse chunk
    · exact .inl (.inr
        ⟨quiet, (quiet_same_iff chunking fits quiet sent state).mp same⟩)
    · by_cases single : chunks.length = 1
      · exact .inl (.inl single)
      · refine .inr ⟨by simpa using quiet, ?_⟩
        intro raw printable objects sends
        exact quiet (quiet_of_indivisible chunking
          (sends.indivisible printable objects) single)

end Sent

/-- The removal of the milk, divided behind the header. -/
def milkChunks : List Chunk :=
  [⟨(CString.lit "!#+").bytes, 0⟩,
    ⟨(Reader.removeMsg (.lit "8480017439482")).bytes, 0⟩]

/-- The daemon with one carton of milk. -/
def stocked : State :=
  { State.start with
    tables := (Change.insertProductData carton).attempt .fresh }

theorem milkChunks_chunking :
    Chunking maxLogsize
      (CString.lit "!#+" ++ Reader.removeMsg (.lit "8480017439482")).bytes
      (milkChunks.map Chunk.bytes) :=
  ⟨by simp [milkChunks], by decide, by decide⟩

theorem milk_sends :
    Sends Json.standardRaw (Reader.removeMsg (.lit "8480017439482")) :=
  .removal (DeletionMessage.printable_plain Json.standardRaw_printable rfl)

theorem segments_same_milk :
    (Unnoticed (.lit "!#+") (Json.parse Json.standardRaw)
          (Reader.removeMsg (.lit "8480017439482")) milkChunks stocked →
        (serve (.lit "!#+") (Json.parse Json.standardRaw) milkChunks
            stocked).map State.tables =
          (serve (.lit "!#+") (Json.parse Json.standardRaw)
            [⟨(CString.lit "!#+" ++
              Reader.removeMsg (.lit "8480017439482")).bytes, 0⟩]
            stocked).map State.tables) ∧
      ((serve (.lit "!#+") (Json.parse Json.standardRaw) milkChunks
            stocked).map State.tables =
          (serve (.lit "!#+") (Json.parse Json.standardRaw)
            [⟨(CString.lit "!#+" ++
              Reader.removeMsg (.lit "8480017439482")).bytes, 0⟩]
            stocked).map State.tables →
        Unnoticed (.lit "!#+") (Json.parse Json.standardRaw)
            (Reader.removeMsg (.lit "8480017439482")) milkChunks stocked ∨
          (∃ chunk ∈ milkChunks,
              OwnMessage (.lit "!#+") (Json.parse Json.standardRaw) chunk) ∧
            ∀ raw : UInt8 → Bool, (∀ byte, 32 ≤ byte → raw byte = true) →
              ReadsObjects raw (Json.parse Json.standardRaw)
                  (Reader.removeMsg (.lit "8480017439482")) →
                ¬ Sends raw (Reader.removeMsg (.lit "8480017439482"))) :=
  segments_same (by decide) milkChunks_chunking (Json.parse Json.standardRaw) 0
    stocked

/-- The only carton of milk stays when its removal arrives in two chunks. -/
theorem divided_removal_lost :
    ¬ ∀ (internalHeader text : CString) (chunks : List Chunk) (state : State),
        Sends Json.standardRaw text →
          (internalHeader ++ text).bytes.length < maxLogsize →
            Chunking maxLogsize (internalHeader ++ text).bytes
                (chunks.map Chunk.bytes) →
              (serve internalHeader (Json.parse Json.standardRaw) chunks
                  state).map State.tables =
                (serve internalHeader (Json.parse Json.standardRaw)
                  [⟨(internalHeader ++ text).bytes, 0⟩]
                  state).map State.tables := by
  intro always
  have fits : (CString.lit "!#+" ++
      Reader.removeMsg (.lit "8480017439482")).bytes.length < maxLogsize := by
    decide
  have same := always _ _ milkChunks stocked milk_sends fits milkChunks_chunking
  have several : milkChunks.length ≠ 1 := by decide
  have ineffective := ((sent_same_iff fits milkChunks_chunking
    Json.standardRaw_printable (readsObjects_json _ _) milk_sends 0
    stocked).mp same).resolve_left several
  let code : CString := .lit "8480017439482"
  have isAsked : asked (Json.parse Json.standardRaw) (Reader.removeMsg code) =
      some (.dbRemove { Product.zero with code := some code }) := by
    have decoded : sfPrDecoder (Json.parse Json.standardRaw)
        (Reader.removeMsg code) =
          some (deletionReq, some { Product.zero with code := some code }) :=
      DeletionMessage.decoded_removeMsg Json.standardRaw_printable (by decide)
        (by decide)
        (DeletionMessage.printable_plain Json.standardRaw_printable rfl)
    rw [asked, decoded]
    rfl
  have inert :=
    (leavesTables_of_script _ rfl).mp (ineffective _ isAsked)
  have carton : ∃ row ∈ stocked.tables.products,
      some code = some row.code ∧ row.elements = .integer 1 :=
    ⟨_, List.mem_cons_self, rfl, rfl⟩
  rcases carton with ⟨row, present, own, one⟩
  have absorbs := inert.1 row present own
  rw [one] at absorbs
  have zero : (-1 : Int32) = 0 := absorbs
  exact absurd zero (by decide)

end SmartFridge.Segmentation
