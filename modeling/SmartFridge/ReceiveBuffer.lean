import SmartFridge.Library.Buffer
import SmartFridge.Library.Runs
import SmartFridge.Segmentation

/-!
# The receive buffers

`start_daemon` and the socket mode of `sf_bar_handler` receive into an array
`msg` of MAX_LOGSIZE bytes, terminate what they have received and go over it
with the string functions.  Both ask `recv` for MAX_LOGSIZE bytes, so that the
terminator of a chunk of that length is written behind the array, whereas
`sf_send_product` declares its array with one byte more.

The array outlives a connection: a chunk overwrites only its own length, and the
chunks of all connections follow each other.
-/

namespace SmartFridge.ReceiveBuffer

open SmartFridge.Library
open SmartFridge.Library.Runs
open SmartFridge.CJson
open SmartFridge.ProductDecoder
open SmartFridge.Daemon
open SmartFridge.Reader
open SmartFridge.SocketMode (maxLogsize)
open SmartFridge.Segmentation (serve)

/-! ## The two loops -/

/-- The array `msg`. -/
abbrev Msg := Buffer maxLogsize

/-- A positive result of `recv` and the bytes that it has put into `msg`. -/
structure Received where
  bytes : List UInt8
  nonempty : bytes ≠ []
  fits : bytes.length ≤ maxLogsize

/-- What both loops do first: they receive, terminate and log a message. -/
def takeMessage (debugLevel : Nat) (received : Received) (msg : Msg) : Msg :=
  let msg := msg.fill received.bytes
  let msg := msg.store received.bytes.length 0
  if debugLevel = 0 then msg else msg.readString 0

/-- What `msg_decoder` reads of `msg`; cJSON measures the text it parses. -/
def msgDecoderReads (internalHeader : CString) (msg : Msg) : Msg :=
  let compared := msg.strncmp 0 internalHeader
  if compared.1 then
    compared.2.readString internalHeader.bytes.length
  else
    (compared.2.strncmp 0 dbSyncHeader).2

/-- The daemon and its array; after a fault there is no daemon. -/
structure DaemonLoop where
  msg : Msg
  daemon : Option State

/-- A chunk and the result that `database_send` would have then. -/
structure Delivery extends Received where
  sent : Int

/-- What `start_daemon` makes of the result of `msg_decoder`. -/
def afterDecoding (decoded : Option (Int × State)) : Option State :=
  decoded.map fun answer =>
    if answer.1 ≠ continueIt ∧ answer.1 ≠ 0 then
      answer.2.sfError .decoderError
    else
      answer.2

/-- A turn of the loop of `start_daemon`, on whatever connection it is. -/
def startDaemonTurn (debugLevel : Nat) (internalHeader : CString)
    (parse : CString → Option Json) (loop : DaemonLoop) (delivery : Delivery) :
    Option DaemonLoop :=
  loop.daemon.map fun state =>
    let msg := takeMessage debugLevel delivery.toReceived loop.msg
    { msg := msgDecoderReads internalHeader msg
      daemon := afterDecoding
        (msgDecoder internalHeader parse delivery.sent (msg.text 0) state) }

/-- The node of a message whose divider was found. -/
def divideMessage (debugLevel : Nat) (mode : DbMode) (found : Nat) (msg : Msg) :
    ProductNode × Msg :=
  let divided := msg.store found 0
  let number := divided.strtol (found + 1)
  let logged := if debugLevel ≤ 1 then number.2 else number.2.readString 1
  let code := logged.strdup 1
  ({ code := code.1, number := .ofInt number.1, mode }, code.2)

/-- The node that a message in `msg` asks for; a message that is refused is
logged. -/
def extractNode (debugLevel : Nat) (mode : DbMode) (msg : Msg) :
    Option ProductNode × Msg :=
  let marked := msg.load 0
  if marked.1 ≠ some 33 then
    (none, marked.2.readString 0)
  else
    let sought := marked.2.strchr 0 Json.colon
    match sought.1 with
    | none => (none, sought.2.readString 0)
    | some found =>
        let extracted := divideMessage debugLevel mode found sought.2
        (some extracted.1, extracted.2)

/-- The socket mode with its array and the nodes that it has offered. -/
structure SocketLoop where
  msg : Msg
  offered : List ProductNode

/-- A turn of the loop of `sf_bar_handler`, on whatever connection it is. -/
def sfBarHandlerTurn (debugLevel : Nat) (mode : DbMode) (loop : SocketLoop)
    (received : Received) : Option SocketLoop :=
  let extracted :=
    extractNode debugLevel mode (takeMessage debugLevel received loop.msg)
  some
    { msg := extracted.2
      offered := loop.offered ++ extracted.1.toList }

/-! ## The indices of a turn -/

section Turn

variable {msg : Msg} {bound index : Nat}

/-- The terminator of a message is written behind its last byte. -/
theorem takeMessage_uses (debugLevel : Nat) (received : Received) (msg : Msg) :
    received.bytes.length ∈ (takeMessage debugLevel received msg).used := by
  have stored : received.bytes.length ∈
      ((msg.fill received.bytes).store received.bytes.length 0).used :=
    List.mem_append_right _ (List.mem_singleton.mpr rfl)
  unfold takeMessage
  split
  · exact stored
  · exact Buffer.mem_used_read stored

/-- Nothing behind the terminator is used to receive a message. -/
theorem takeMessage_within (debugLevel : Nat) {received : Received}
    (short : received.bytes.length < msg.cells.length) :
    Buffer.Within received.bytes.length msg
      (takeMessage debugLevel received msg) := by
  have stored := Buffer.message_within msg short
  unfold takeMessage
  split
  · exact stored
  · exact stored.trans
      (Buffer.readString_within stored.terminated (Nat.zero_le _))

theorem msgDecoderReads_uses (internalHeader : CString)
    (used : index ∈ msg.used) :
    index ∈ (msgDecoderReads internalHeader msg).used := by
  dsimp only [msgDecoderReads]
  split
  · exact Buffer.mem_used_read (Buffer.mem_used_read used)
  · exact Buffer.mem_used_read (Buffer.mem_used_read used)

/-- A header that is recognised ends before the terminator. -/
theorem msgDecoderReads_within (internalHeader : CString)
    (terminated : msg.cells[bound]? = some 0) :
    Buffer.Within bound msg (msgDecoderReads internalHeader msg) := by
  have compared := Buffer.strncmp_within internalHeader terminated
    (Nat.zero_le bound)
  dsimp only [msgDecoderReads]
  split
  · next same =>
      have inside := Buffer.strncmp_le terminated (Nat.zero_le bound) same
      rw [Nat.zero_add] at inside
      exact compared.trans
        (Buffer.readString_within compared.terminated inside)
  · exact compared.trans
      (Buffer.strncmp_within dbSyncHeader compared.terminated
        (Nat.zero_le bound))

theorem divideMessage_uses (debugLevel : Nat) (mode : DbMode) (found : Nat)
    (used : index ∈ msg.used) :
    index ∈ (divideMessage debugLevel mode found msg).2.used := by
  have converted : index ∈ ((msg.store found 0).strtol (found + 1)).2.used :=
    Buffer.mem_used_read (Buffer.mem_used_store used)
  dsimp only [divideMessage]
  apply Buffer.mem_used_read
  split
  · exact converted
  · exact Buffer.mem_used_read converted

/-- Behind the divider there is at least the terminator. -/
theorem divideMessage_within (debugLevel : Nat) (mode : DbMode) {found : Nat}
    (terminated : msg.cells[bound]? = some 0) (inside : found < bound) :
    Buffer.Within bound msg (divideMessage debugLevel mode found msg).2 := by
  have divided := Buffer.store_within terminated inside.le
  have converted := divided.trans
    (Buffer.strtol_within divided.terminated (Nat.succ_le_of_lt inside))
  have positive : 1 ≤ bound := Nat.one_le_of_lt inside
  dsimp only [divideMessage]
  split
  · exact converted.trans
      (Buffer.readString_within converted.terminated positive)
  · have logged := converted.trans
      (Buffer.readString_within converted.terminated positive)
    exact logged.trans (Buffer.readString_within logged.terminated positive)

theorem extractNode_uses (debugLevel : Nat) (mode : DbMode)
    (used : index ∈ msg.used) :
    index ∈ (extractNode debugLevel mode msg).2.used := by
  have marked : index ∈ (msg.load 0).2.used := Buffer.mem_used_use used
  have sought : index ∈ ((msg.load 0).2.strchr 0 Json.colon).2.used :=
    Buffer.mem_used_read marked
  dsimp only [extractNode]
  split
  · exact Buffer.mem_used_read marked
  · split
    · exact Buffer.mem_used_read sought
    · exact divideMessage_uses debugLevel mode _ sought

theorem extractNode_within (debugLevel : Nat) (mode : DbMode)
    (terminated : msg.cells[bound]? = some 0) :
    Buffer.Within bound msg (extractNode debugLevel mode msg).2 := by
  have start := Nat.zero_le bound
  have marked := Buffer.load_within terminated start
  have sought := marked.trans
    (Buffer.strchr_within Json.colon marked.terminated start)
  dsimp only [extractNode]
  split
  · exact marked.trans (Buffer.readString_within marked.terminated start)
  · split
    · exact sought.trans (Buffer.readString_within sought.terminated start)
    · next found isFound =>
        have inside := Buffer.strchr_lt marked.terminated start isFound
        exact sought.trans
          (divideMessage_within debugLevel mode sought.terminated inside)

/-- A message that is shorter than the array has its terminator in it. -/
theorem terminator_inside {received : Received}
    (short : received.bytes.length < maxLogsize) (msg : Msg) :
    received.bytes.length < msg.cells.length :=
  lt_of_lt_of_le short msg.declared

/-- If what is done with a message uses nothing behind its terminator, a turn
keeps to the array exactly if the message does not fill it. -/
theorem turn_inBounds_iff {handle : Msg → Msg}
    (uses : ∀ {msg index}, index ∈ msg.used → index ∈ (handle msg).used)
    (within : ∀ {msg : Msg} {bound}, msg.cells[bound]? = some 0 →
      Buffer.Within bound msg (handle msg))
    (debugLevel : Nat) {received : Received} {msg : Msg}
    (inBounds : msg.InBounds) :
    (handle (takeMessage debugLevel received msg)).InBounds ↔
      received.bytes.length < maxLogsize := by
  constructor
  · intro handledInBounds
    exact handledInBounds _ (uses (takeMessage_uses debugLevel received msg))
  · intro short index used
    have taken := takeMessage_within debugLevel (terminator_inside short msg)
    have handled := taken.trans (within taken.terminated)
    rcases handled.bounded index used with earlier | small
    · exact inBounds index earlier
    · exact lt_of_le_of_lt small short

end Turn

/-! ## What a turn does besides -/

section Effect

/-- What was received is the string that the loops work on. -/
theorem takeMessage_text (debugLevel : Nat) {received : Received} {msg : Msg}
    (short : received.bytes.length < maxLogsize) :
    (takeMessage debugLevel received msg).text 0 =
      CString.ofBuffer received.bytes := by
  rw [← Buffer.text_terminated msg (terminator_inside short msg)]
  unfold takeMessage
  split
  · rfl
  · rfl

/-- The divider is overwritten, so that the code ends there. -/
theorem divideMessage_eq (debugLevel : Nat) (mode : DbMode) (found : Nat)
    (msg : Msg) :
    (divideMessage debugLevel mode found msg).1 =
      { code := (msg.store found 0).text 1
        number := readNumber ((msg.store found 0).text (found + 1))
        mode } := by
  dsimp only [divideMessage]
  split
  · rfl
  · rfl

/-- The node that is extracted is the one of the string. -/
theorem extractNode_eq (debugLevel : Nat) (mode : DbMode) (msg : Msg) :
    (extractNode debugLevel mode msg).1 = socketNode mode (msg.text 0) := by
  have mark : (33 : UInt8) ≠ 0 := by decide
  dsimp only [extractNode]
  split
  · next unmarked =>
      rw [socketNode, if_neg fun starts =>
        unmarked ((msg.head_text mark).mp starts)]
  · next marked =>
      have starts := (msg.head_text mark).mpr (not_not.mp marked)
      rw [socketNode, if_pos starts]
      split
      · next absent =>
          rw [msg.cut_of_strchr_none absent]
          rfl
      · next found isFound =>
          have stored : (msg.store found 0).text 0 ≠ .empty := by
            have behind := msg.strchr_ne_zero isFound starts (by decide)
            have stays : ((msg.store found 0).load 0).1 = some 33 := by
              change (msg.cells.set found 0)[0]? = some 33
              rw [List.getElem?_set_ne behind]
              exact not_not.mp marked
            intro isEmpty
            have first := ((msg.store found 0).head_text mark).mpr stays
            rw [isEmpty] at first
            cases first
          rw [msg.cut_of_strchr_some isFound, Option.map_some,
            ← Buffer.text_succ _ stored]
          exact congrArg some (divideMessage_eq debugLevel mode found _)

theorem startDaemonTurn_eq (debugLevel : Nat) (internalHeader : CString)
    (parse : CString → Option Json) (delivery : Delivery) {loop : DaemonLoop}
    {state : State} (running : loop.daemon = some state) :
    startDaemonTurn debugLevel internalHeader parse loop delivery =
      some
        { msg := msgDecoderReads internalHeader
            (takeMessage debugLevel delivery.toReceived loop.msg)
          daemon := afterDecoding
            (msgDecoder internalHeader parse delivery.sent
              ((takeMessage debugLevel delivery.toReceived loop.msg).text 0)
              state) } := by
  rw [startDaemonTurn, running]
  rfl

/-- On a message that does not fill the array, a turn of the daemon is the
service of a connection with this message. -/
theorem startDaemonTurn_serves {debugLevel : Nat} {internalHeader : CString}
    {parse : CString → Option Json} {loop next : DaemonLoop} {state : State}
    {delivery : Delivery} (running : loop.daemon = some state)
    (short : delivery.bytes.length < maxLogsize)
    (turned : startDaemonTurn debugLevel internalHeader parse loop delivery =
      some next) :
    next.daemon =
      serve internalHeader parse [⟨delivery.bytes, delivery.sent⟩] state := by
  rw [startDaemonTurn_eq debugLevel internalHeader parse delivery running,
    takeMessage_text debugLevel short] at turned
  cases turned
  rw [serve, if_pos short]
  cases msgDecoder internalHeader parse delivery.sent
      (CString.ofBuffer delivery.bytes) state with
  | none => rfl
  | some answer =>
      by_cases ended : answer.1 = continueIt
      · simp [afterDecoding, ended]
      · by_cases failed : answer.1 = 0
        · simp [afterDecoding, failed, serve]
        · simp [afterDecoding, ended, failed, serve]

/-- On messages that do not fill the array, the turns offer the nodes of a
connection with these messages. -/
theorem run_sfBarHandlerTurn {debugLevel : Nat} {mode : DbMode}
    {loop final : SocketLoop} {deliveries : List Received}
    (short : ∀ received ∈ deliveries, received.bytes.length < maxLogsize)
    (reached : run (sfBarHandlerTurn debugLevel mode) loop deliveries =
      some final) :
    ∃ nodes,
      SocketMode.sfBarHandler mode (deliveries.map Received.bytes) =
          some nodes ∧
        final.offered = loop.offered ++ nodes := by
  induction deliveries generalizing loop with
  | nil =>
      cases reached
      exact ⟨[], rfl, (List.append_nil _).symm⟩
  | cons received rest ih =>
      rcases List.forall_mem_cons.mp short with ⟨first, others⟩
      rcases (run_cons _ _ _ _ _).mp reached with ⟨next, turned, continued⟩
      rcases ih others continued with ⟨nodes, handled, offered⟩
      refine ⟨SocketMode.chunkNodes mode received.bytes ++ nodes, ?_, ?_⟩
      · rw [List.map_cons, SocketMode.sfBarHandler, if_pos first, handled]
        rfl
      · cases turned
        rw [offered, extractNode_eq, takeMessage_text debugLevel first,
          List.append_assoc]
        rfl

end Effect

/-! ## Runs -/

/-- The daemon before its first message. -/
def DaemonLoop.start (msg : Msg) (state : State) : DaemonLoop :=
  { msg := msg.fresh, daemon := some state }

/-- The socket mode before its first message. -/
def SocketLoop.start (msg : Msg) : SocketLoop :=
  { msg := msg.fresh, offered := [] }

/-- A turn of the daemon keeps to the array exactly if its message does not
fill it. -/
theorem startDaemonTurn_inBounds_iff {debugLevel : Nat}
    {internalHeader : CString} {parse : CString → Option Json}
    {loop next : DaemonLoop} {delivery : Delivery}
    (inBounds : loop.msg.InBounds)
    (turned : startDaemonTurn debugLevel internalHeader parse loop delivery =
      some next) :
    next.msg.InBounds ↔ delivery.bytes.length < maxLogsize := by
  rcases Option.map_eq_some_iff.mp turned with ⟨state, _, rfl⟩
  exact turn_inBounds_iff (msgDecoderReads_uses internalHeader)
    (msgDecoderReads_within internalHeader) debugLevel inBounds

/-- The same for a turn of the socket mode. -/
theorem sfBarHandlerTurn_inBounds_iff {debugLevel : Nat} {mode : DbMode}
    {loop next : SocketLoop} {received : Received}
    (inBounds : loop.msg.InBounds)
    (turned : sfBarHandlerTurn debugLevel mode loop received = some next) :
    next.msg.InBounds ↔ received.bytes.length < maxLogsize := by
  cases turned
  exact turn_inBounds_iff (extractNode_uses debugLevel mode)
    (extractNode_within debugLevel mode) debugLevel inBounds

/-- An array of which nothing was used was not left. -/
theorem fresh_inBounds (msg : Msg) : msg.fresh.InBounds :=
  List.forall_mem_nil _

/--
Whatever is received, neither loop uses an index outside of its array before
one of its messages fills the array, and that message makes it do so.
-/
theorem buffers_kept_iff (debugLevel : Nat) :
    (∀ (internalHeader : CString) (parse : CString → Option Json) (msg : Msg)
        (state : State) (deliveries : List Delivery),
      StatesSatisfy (startDaemonTurn debugLevel internalHeader parse)
          (fun loop => loop.msg.InBounds) (.start msg state) deliveries ↔
        StepsMeet (startDaemonTurn debugLevel internalHeader parse)
          (fun _ delivery => delivery.bytes.length < maxLogsize)
          (.start msg state) deliveries) ∧
      ∀ (mode : DbMode) (msg : Msg) (messages : List Received),
        StatesSatisfy (sfBarHandlerTurn debugLevel mode)
            (fun loop => loop.msg.InBounds) (.start msg) messages ↔
          StepsMeet (sfBarHandlerTurn debugLevel mode)
            (fun _ received => received.bytes.length < maxLogsize)
            (.start msg) messages := by
  constructor
  · intro internalHeader parse msg state deliveries
    apply statesSatisfy_iff_stepsMeet (fun _ _ => True)
    · intros
      trivial
    · intro loop delivery rest next _ inBounds turned
      exact startDaemonTurn_inBounds_iff inBounds turned
    · trivial
    · exact fresh_inBounds msg
  · intro mode msg messages
    apply statesSatisfy_iff_stepsMeet (fun _ _ => True)
    · intros
      trivial
    · intro loop received rest next _ inBounds turned
      exact sfBarHandlerTurn_inBounds_iff inBounds turned
    · trivial
    · exact fresh_inBounds msg

/-- A message of MAX_LOGSIZE letters. -/
def fullMessage : Received where
  bytes := List.replicate maxLogsize 97
  nonempty := List.ne_nil_of_length_pos (by simp)
  fits := by simp

/-- An array of zeros with nothing behind it. -/
def zeros : Msg where
  cells := List.replicate maxLogsize 0
  used := []
  declared := by simp

/-- The terminator of that message is written behind both arrays. -/
theorem fullMessage_overruns :
    ¬ StatesSatisfy
        (startDaemonTurn 0 (.lit "!#+") (Json.parse Json.standardRaw))
        (fun loop => loop.msg.InBounds) (.start zeros .start)
        [⟨fullMessage, 0⟩] ∧
      ¬ StatesSatisfy (sfBarHandlerTurn 0 .add) (fun loop => loop.msg.InBounds)
        (.start zeros) [fullMessage] := by
  have full : ¬ fullMessage.bytes.length < maxLogsize := by
    simp [fullMessage]
  constructor
  · rintro ⟨inBounds, later⟩
    have running :
        (DaemonLoop.start zeros .start).daemon = some State.start := rfl
    have turned := startDaemonTurn_eq 0 (.lit "!#+")
      (Json.parse Json.standardRaw) ⟨fullMessage, 0⟩ running
    exact full ((startDaemonTurn_inBounds_iff inBounds turned).mp
      (later _ turned))
  · rintro ⟨inBounds, later⟩
    exact full ((sfBarHandlerTurn_inBounds_iff inBounds rfl).mp (later _ rfl))

end SmartFridge.ReceiveBuffer
