import SmartFridge.Inventory
import SmartFridge.PipelineShutdown
import SmartFridge.Segmentation
import SmartFridge.Sending

/-!
# The fridge

The reader and the daemon together.  The storer opens a connection for every
attempt to send, connections wait in the order in which they were made, and
the daemon serves the oldest one by what `recv` returns.  Other programs may
connect to the daemon as well.

What the daemon has in its tables is then the stock that it was started with
and the scanned nodes whose messages it has served, in their order, as long as
the messages are whole, no call of their operations fails, and the nodes and
documents are such that a message can stand for its node.
-/

namespace SmartFridge.Fridge

open SmartFridge.Library
open SmartFridge.Library.Runs
open SmartFridge.CJson
open SmartFridge.ProductDecoder
open SmartFridge.ProductRoundTrip
open SmartFridge.Pipeline
open SmartFridge.PipelineConservation
open SmartFridge.PipelineShutdown
open SmartFridge.QueueRing
open SmartFridge.Reader
open SmartFridge.Schema
open SmartFridge.Daemon (Call CarriesOut Request requestOf requested)
open SmartFridge.Atomicity (Fails callCount perform_cases)
open SmartFridge.DeletionMessage (ReadsRemovals readsRemovals_json)
open SmartFridge.Inventory
open SmartFridge.ReaderRequests
open SmartFridge.Segmentation
open SmartFridge.Sending (Calls sfSendProduct FailsOpenly FitsAndIsTaken
  SendsWell)
open SmartFridge.SocketMode (maxLogsize)

/-- A connection to the daemon, and the message that the storer sent on it. -/
structure Connection where
  data : Option (Tagged CString)
  bytes : List UInt8

/-- The two programs and the connections that wait for the daemon. -/
structure Programs where
  reader : Pipeline.State
  network : List Connection
  daemon : Daemon.State
  served : List (Tagged CString)

/-- The steps of the fridge. -/
inductive Event where
  | read (event : Pipeline.Event)
  | send (calls : Calls)
  | connect (bytes : List UInt8)
  | serve (chunks : List Chunk)

section Programs

variable (parse : CString → Option Json) (print : Json → CString)
  (internalHeader : CString)

/-- A step of the reader other than an attempt to send. -/
def read (fridge : Programs) : Pipeline.Event → Option Programs
  | .storerSend _ => none
  | event =>
      (Pipeline.step parse print fridge.reader event).map
        fun reader => { fridge with reader }

/-- The connection of an attempt, if it comes to one. -/
def connection (data : Tagged CString) (calls : Calls) : List Connection :=
  if calls.sock = -1 ∨ calls.connect < 0 then
    []
  else
    let attempt := sfSendProduct internalHeader data.value calls
    [{ data := if attempt.retval = 0 then some data else none
       bytes := attempt.handed }]

/-- An attempt of the storer to send what it holds. -/
def send (fridge : Programs) (calls : Calls) : Option Programs :=
  match fridge.reader.storer with
  | .holding data =>
      (storerSend
        ((sfSendProduct internalHeader data.value calls).retval = 0)
        fridge.reader).map fun reader =>
          { fridge with
            reader
            network := fridge.network ++ connection internalHeader data calls }
  | _ => none

/--
`start_daemon` accepts the oldest connection and serves what `recv` returns of
it, which is the bytes up to where the connection ends or breaks.
-/
def serveNext (fridge : Programs) (chunks : List Chunk) : Option Programs :=
  match fridge.network with
  | [] => none
  | connection :: rest =>
      if (chunks.map Chunk.bytes).flatten <+: connection.bytes then
        (serve internalHeader parse chunks fridge.daemon).map
          fun daemon =>
            { fridge with
              network := rest
              daemon
              served := fridge.served ++ connection.data.toList }
      else
        none

/-- A step of the reader, of the network or of the daemon. -/
def step (fridge : Programs) : Event → Option Programs
  | .read event => read parse print fridge event
  | .send calls => send internalHeader fridge calls
  | .connect bytes =>
      some { fridge with network := fridge.network ++ [⟨none, bytes⟩] }
  | .serve chunks => serveNext parse internalHeader fridge chunks

/-- Both programs have just been started, the daemon on some database. -/
def start (idSize prSize : Int) (scanner : Scanner) (daemon : Daemon.State) :
    Programs where
  reader := Pipeline.start idSize prSize scanner
  network := []
  daemon
  served := []

/-! ## What the messages stand for -/

/-- What a node is to do to the stock. -/
def nodeCount (stock : Stock) (node : ProductNode) : Stock :=
  match node.mode with
  | .add =>
      Function.update stock node.code
        (some ((stock node.code).getD 0 + node.number.toInt))
  | .remove => Function.update stock node.code ((stock node.code).bind takeOne)

/-- The stock after the nodes that some messages stem from. -/
def stockOf (stock : Stock) (accepted : List ProductNode)
    (messages : List (Tagged CString)) : Stock :=
  (messages.filterMap fun data => accepted[data.ident]?).foldl nodeCount stock

/-- The operation as the daemon calls it. -/
def operationCall : Operation → Call
  | .insert product => .dbInsert product
  | .remove product => .dbRemove product

/--
The parser reads what the reader sends: the objects that it prints, and the
deletion messages.
-/
structure ReadsReader (raw : UInt8 → Bool) : Prop where
  printed : ReadsPrinted parse print
  removals : ReadsRemovals raw parse

/-- The message asks for an operation that does what the node is to do. -/
structure StandsFor (node : ProductNode) (text : CString)
    (operation : Operation) : Prop where
  asks :
    requested internalHeader parse (internalHeader ++ text) =
      some operation.request
  proper : operation.Proper
  counts : ∀ stock, operation.count stock = nodeCount stock node

/-- A code that fits in a deletion message and needs no escape there. -/
structure ProperCode (raw : UInt8 → Bool) (code : CString) : Prop where
  nonempty : code ≠ CString.empty
  fits : code.bytes.length ≤ 73
  plain : ∀ byte ∈ code.bytes, Json.Plain raw byte

/-- A document that says of its product what the database requires. -/
def FullDocument (buffer : CString) : Prop :=
  ∀ strJson document product,
    buffer.strchr Json.openBrace = some strJson →
      parse strJson = some document →
        getObjectItem (some document) jsonProduct = some product →
          TextsAreStrings product ∧
            getObjectItem (some product) jsonProductQuantity ≠
              some (.string CString.empty)

variable {parse print internalHeader} {raw : UInt8 → Bool}

theorem readsReader_json (printable : ∀ byte, 32 ≤ byte → raw byte = true) :
    ReadsReader (Json.parse raw) Json.printUnformatted raw where
  printed := readsPrinted_json printable
  removals := readsRemovals_json printable

theorem standsFor_removal (reads : ReadsRemovals raw parse)
    {node : ProductNode} (removes : node.mode = .remove)
    (proper : ProperCode raw node.code) :
    StandsFor parse internalHeader node (removeMsg node.code)
      (.remove { Product.zero with code := some node.code }) where
  asks :=
    requested_removal internalHeader reads proper.nonempty proper.fits
      proper.plain
  proper := trivial
  counts := by
    intro stock
    simp only [nodeCount, removes, Operation.count]

/-- A message that the decoder prints is that of some copied data. -/
theorem documentMessage_eq_ok {now buffer text : CString} {node : ProductNode}
    (made : documentMessage parse print now node buffer = some (.ok text)) :
    ∃ strJson document product copied,
      buffer.strchr Json.openBrace = some strJson ∧
        parse strJson = some document ∧
        getObjectItem (some document) jsonProduct = some product ∧
        CopiedFrom product copied ∧
        text = print (.object (message copied node.number now node.code)) := by
  simp only [documentMessage] at made
  split at made
  · cases made
  · rename_i strJson opened
    split at made
    · cases made
    · rename_i result object decoded
      split at made
      · cases made
      · rename_i accepted
        obtain rfl : result = noError := not_not.mp accepted
        obtain ⟨value, rfl⟩ := object_of_noError decoded
        obtain ⟨document, product, copied, parsed, found, from_, same⟩ :=
          rawDecoding_eq_ok.mp (outcome_eq_decoded.mp decoded)
        cases same
        exact
          ⟨strJson, document, product, copied, opened, parsed, found, from_,
            by simpa using made.symm⟩

theorem nullIfEmpty_of_ne {text : CString} (nonempty : text ≠ CString.empty) :
    nullIfEmpty text = some text :=
  if_neg nonempty

/-- The quantity of a full document is stored. -/
theorem quantity_of_full {buffer strJson : CString} {document product : Json}
    {copied : Copied} (full : FullDocument parse buffer)
    (opened : buffer.strchr Json.openBrace = some strJson)
    (parsed : parse strJson = some document)
    (found : getObjectItem (some document) jsonProduct = some product)
    (from_ : CopiedFrom product copied) :
    copied.quantity.bind nullIfEmpty ≠ none := by
  obtain ⟨strings, filled⟩ := full strJson document product opened parsed found
  have complete := (complete_iff_textsAreStrings from_).mpr strings
  have present := complete copied.quantity (by simp [Copied.texts])
  obtain ⟨text, quantity⟩ := Option.isSome_iff_exists.mp present
  have read := from_.quantity
  obtain ⟨item, itemFound, valued⟩ := Option.map_eq_some_iff.mp read
  have isString : item = .string text := by
    rw [quantity] at valued
    exact readString_eq_ok.mp (by rw [readString, valued])
  have nonempty : text ≠ CString.empty := by
    rintro rfl
    rw [isString] at itemFound
    exact filled itemFound
  rw [quantity, Option.bind_some, nullIfEmpty_of_ne nonempty]
  exact Option.some_ne_none text

theorem standsFor_addition (reads : ReadsPrinted parse print)
    {node : ProductNode} (adds : node.mode ≠ .remove)
    (coded : node.code ≠ CString.empty) (positive : 1 ≤ node.number.toInt)
    {now buffer text : CString} (dated : now ≠ CString.empty)
    (full : FullDocument parse buffer)
    (made : documentMessage parse print now node buffer = some (.ok text)) :
    ∃ operation, StandsFor parse internalHeader node text operation := by
  obtain ⟨strJson, document, product, copied, opened, parsed, found, from_,
    rfl⟩ := documentMessage_eq_ok made
  have strings := (full strJson document product opened parsed found).1
  have quantity := quantity_of_full full opened parsed found from_
  refine ⟨.insert (received copied node.number now node.code), ?_, ?_, ?_⟩
  · exact
      requested_addition internalHeader reads
        (decodedImages_allStrings from_.images)
        ((complete_iff_textsAreStrings from_).mpr strings)
        node.number now node.code
  · exact
      ⟨{ code := by
           rw [received, nullIfEmpty_of_ne coded]
           exact Option.some_ne_none _
         name := Option.some_ne_none _
         quantity := quantity
         timestamp := by
           rw [received, nullIfEmpty_of_ne dated]
           exact Option.some_ne_none _ },
        positive⟩
  · intro stock
    have addition : node.mode = .add := by
      cases mode : node.mode with
      | add => rfl
      | remove => exact absurd mode adds
    have same :
        (received copied node.number now node.code).code = some node.code :=
      nullIfEmpty_of_ne coded
    simp only [nodeCount, addition, Operation.count, same]
    rfl

/-! ## The conditions on the steps -/

variable (parse print internalHeader raw)

/-- What the decoder turns into a message can stand for its node. -/
def Feeds (reader : Pipeline.State) : Pipeline.Event → Prop
  | .decoderFormat =>
      ∀ node, reader.decoder = .holding node → ProperCode raw node.value.code
  | .decoderDownload download now =>
      ∀ node buffer, reader.decoder = .holding node →
        download = .fetched buffer →
          node.value.code ≠ CString.empty ∧ 1 ≤ node.value.number.toInt ∧
            now ≠ CString.empty ∧ FullDocument parse buffer
  | _ => True

/--
A message arrives whole, the table can follow what it asks, and no call of that
operation fails.
-/
def Arrives (daemon : Daemon.State) (connection : Connection)
    (chunks : List Chunk) (data : Tagged CString) : Prop :=
  (∃ sent, chunks = [⟨connection.bytes, sent⟩]) ∧
    ∀ operation : Operation,
      requested internalHeader parse (internalHeader ++ data.value) =
          some operation.request →
        Identified daemon.tables operation ∧ Fits daemon.tables operation ∧
          ¬ Fails daemon.script
            (callCount ((operationCall operation).changes daemon.tables))

/-- A connection that carries no product of the storer has no message. -/
def Foreign (chunks : List Chunk) : Prop :=
  ∀ chunk ∈ chunks, chunk.bytes.length < maxLogsize ∧
    ¬ OwnMessage internalHeader parse chunk

/-- The condition under which a step keeps the daemon in line. -/
def Meets (fridge : Programs) : Event → Prop
  | .read event => Feeds parse raw fridge.reader event
  | .send calls =>
      ∀ data, fridge.reader.storer = .holding data →
        SendsWell internalHeader data.value calls
  | .connect _ => True
  | .serve chunks =>
      ∀ connection rest, fridge.network = connection :: rest →
        (∀ data, connection.data = some data →
          Arrives parse internalHeader fridge.daemon connection chunks data) ∧
        (connection.data = none → Foreign parse internalHeader chunks)

/-- Every message underway stands for its accepted node. -/
def Standing (reader : Pipeline.State) : Prop :=
  ∀ data ∈ messagesUnderway reader, ∀ node,
    reader.accepted[data.ident]? = some node →
      ∃ operation, StandsFor parse internalHeader node data.value operation

/--
The invariant of the two programs: what was sent is what was served and then
what waits, what waits is whole, and the table follows the stock of what was
served.
-/
structure Settled (stock : Stock) (fridge : Programs) : Prop where
  reader : Invariant parse print fridge.reader
  standing : Standing parse internalHeader fridge.reader
  sent :
    fridge.reader.sent =
      fridge.served ++ fridge.network.filterMap Connection.data
  whole :
    ∀ connection ∈ fridge.network, ∀ data, connection.data = some data →
      connection.bytes = (internalHeader ++ data.value).bytes ∧
        connection.bytes.length < maxLogsize
  counted : Counted fridge.daemon.tables
  agrees :
    Agrees fridge.daemon.tables
      (stockOf stock fridge.reader.accepted fridge.served)

variable {parse print internalHeader raw}

/-! ### Steps of the reader -/

section Reader

variable {reader next : Pipeline.State} {event : Pipeline.Event}

/-- Accepted nodes stay where they are. -/
theorem accepted_effect
    (effect : Effect parse print reader next) :
    ∃ later, next.accepted = reader.accepted ++ later := by
  cases effect with
  | accepts => exact ⟨_, rfl⟩
  | _ => exact ⟨[], (List.append_nil _).symm⟩

/-- A message underway was underway before, or the decoder has just made it. -/
theorem messages_effect
    (effect : Effect parse print reader next)
    {data : Tagged CString} (member : data ∈ messagesUnderway next) :
    data ∈ messagesUnderway reader ∨
      ∃ node mode, reader.decoder = .holding node ∧
        data.ident = node.ident ∧ next.decoder = .queueing data mode := by
  cases effect with
  | scanner => exact .inl member
  | accepts => exact .inl member
  | takesNode free formed taken =>
      rcases Decoder.holds_eq_nil.mp free with ⟨_, noMessage⟩
      left
      simpa [messagesUnderway, noMessage] using member
  | decoderIdles decoder log free after =>
      rcases Decoder.holds_eq_nil.mp free with ⟨_, noMessage⟩
      rcases Decoder.holds_eq_nil.mp after with ⟨_, stillNoMessage⟩
      left
      simpa [messagesUnderway, noMessage, stillNoMessage] using member
  | @formats node text mode held made =>
      have split : data = ⟨node.ident, text⟩ ∨
          data ∈ messagesUnderway reader := by
        simpa [messagesUnderway, held] using member
      rcases split with rfl | earlier
      · exact .inr ⟨node, mode, held, rfl, rfl⟩
      · exact .inl earlier
  | discards held reported =>
      have others :
          data ∈ reader.prq.contents ++ reader.storer.data ++ reader.sent := by
        simpa [messagesUnderway, State.givesUp] using member
      left
      simpa [messagesUnderway] using
        List.mem_append_right reader.decoder.message others
  | queues held formed stored =>
      left
      simpa [messagesUnderway, held, stored.mem_iff, or_assoc] using member
  | takesMessage free formed taken =>
      left
      simpa [messagesUnderway, free, taken.mem_iff, or_assoc, or_left_comm]
        using member
  | storerIdles storer log free after =>
      left
      simpa [messagesUnderway, free, after] using member
  | sends held =>
      left
      simpa [messagesUnderway, held, or_comm, or_left_comm] using member
  | retries => exact .inl member

/-- A message that the decoder has just made stands for its node. -/
theorem standsFor_made
    (reads : ReadsReader parse print raw)
    (feeds : Feeds parse raw reader event)
    (stepped : Pipeline.step parse print reader event = some next)
    {node : Tagged ProductNode} {data : Tagged CString} {mode : DbMode}
    (held : reader.decoder = .holding node)
    (queueing : next.decoder = .queueing data mode) :
    ∃ operation, StandsFor parse internalHeader node.value data.value
      operation := by
  have changed : next.decoder ≠ reader.decoder := by
    rw [held, queueing]
    simp
  have noScan : ¬ IsScan event := fun scans =>
    changed (onlyScans_of_isScan scans stepped).decoder
  cases event with
  | scan symbol => exact absurd trivial noScan
  | receive msg => exact absurd trivial noScan
  | readLine => exact absurd trivial noScan
  | closeCamera => exact absurd trivial noScan
  | switchMode => exact absurd trivial noScan
  | setExecutionEnds =>
      cases setExecutionEnds_eq stepped
      exact absurd rfl changed
  | decoderGet =>
      change decoderGet reader = some next at stepped
      simp only [decoderGet, held] at stepped
      cases stepped
  | decoderReadEnds =>
      change decoderReadEnds reader = some next at stepped
      simp only [decoderReadEnds, held] at stepped
      cases stepped
  | decoderFormat =>
      change decoderFormat reader = some next at stepped
      simp only [decoderFormat, held] at stepped
      split at stepped
      · rename_i removes
        cases stepped
        cases queueing
        exact ⟨_, standsFor_removal reads.removals removes (feeds node held)⟩
      · cases stepped
  | decoderDownload download now =>
      change
        decoderDownload parse print download now reader = some next at stepped
      simp only [decoderDownload, held] at stepped
      split at stepped
      · cases stepped
      · rename_i adds
        split at stepped
        · cases stepped
          cases queueing
        · rename_i buffer
          split at stepped
          · cases stepped
          · cases stepped
            cases queueing
          · rename_i text made
            cases stepped
            cases queueing
            obtain ⟨coded, positive, dated, full⟩ :=
              feeds node buffer held rfl
            exact
              standsFor_addition reads.printed adds coded positive dated full
                made
  | decoderAdd =>
      change decoderAdd reader = some next at stepped
      simp only [decoderAdd, held] at stepped
      cases stepped
  | storerGet => exact absurd (storerGet_works stepped).decoder changed
  | storerReadEnds =>
      exact absurd (storerReadEnds_reads stepped).decoder changed
  | storerSend delivered =>
      exact absurd (storerSend_works stepped).decoder changed

/-- What is added to what was sent comes from the storer, which has it no more. -/
theorem sent_effect (effect : Effect parse print reader next) :
    next.sent = reader.sent ∨
      ∃ data, reader.storer = .holding data ∧ next.storer = .fetch := by
  cases effect with
  | @sends data held => exact .inr ⟨data, held, rfl⟩
  | _ => exact .inl rfl

/-- Only an attempt to send adds to what was sent. -/
theorem sent_stays
    (invariant : Invariant parse print reader)
    (notSend : ∀ delivered, event ≠ .storerSend delivered)
    (stepped : Pipeline.step parse print reader event = some next) :
    next.sent = reader.sent := by
  have effect := step_effect invariant.idqFormed invariant.prqFormed stepped
  rcases sent_effect effect with same | ⟨data, held, sent⟩
  · exact same
  -- No other step takes a message away from the storer.
  have moved : next.storer ≠ reader.storer := by
    rw [held, sent]
    simp
  have noScan : ¬ IsScan event := fun scans =>
    moved (onlyScans_of_isScan scans stepped).storer
  cases event with
  | scan symbol => exact absurd trivial noScan
  | receive msg => exact absurd trivial noScan
  | readLine => exact absurd trivial noScan
  | closeCamera => exact absurd trivial noScan
  | switchMode => exact absurd trivial noScan
  | setExecutionEnds =>
      cases setExecutionEnds_eq stepped
      exact absurd rfl moved
  | decoderGet => exact absurd (decoderGet_works stepped).storer moved
  | decoderReadEnds =>
      exact absurd (decoderReadEnds_reads stepped).storer moved
  | decoderFormat => exact absurd (decoderFormat_works stepped).storer moved
  | decoderDownload download now =>
      exact absurd (decoderDownload_works stepped).storer moved
  | decoderAdd =>
      exact absurd (decoderAdd_adds invariant.prqFormed stepped).storer moved
  | storerGet =>
      change storerGet reader = some next at stepped
      simp only [storerGet, held] at stepped
      cases stepped
  | storerReadEnds =>
      have waiting := (storerReadEnds_reads stepped).before
      rw [held] at waiting
      cases waiting
  | storerSend delivered => exact absurd rfl (notSend delivered)

/-- A step of the reader keeps what stands for what. -/
theorem standing_step
    (reads : ReadsReader parse print raw)
    (invariant : Invariant parse print reader)
    (standing : Standing parse internalHeader reader)
    (feeds : Feeds parse raw reader event)
    (stepped : Pipeline.step parse print reader event = some next) :
    Standing parse internalHeader next := by
  have effect := step_effect invariant.idqFormed invariant.prqFormed stepped
  obtain ⟨later, grown⟩ := accepted_effect effect
  intro data member node found
  -- The node is the one that was accepted under this number before.
  have same : ∀ earlier, reader.accepted[data.ident]? = some earlier →
      earlier = node := by
    intro earlier known
    have stays := accepted_stays known later
    rw [← grown, found] at stays
    exact (Option.some.inj stays).symm
  rcases messages_effect effect member with
    before | ⟨source, mode, held, ident, queueing⟩
  · obtain ⟨earlier, known, _⟩ := invariant.genuine.messages data before
    obtain rfl := same earlier known
    exact standing data before earlier known
  · have underway : source ∈ nodesUnderway reader := by
      simp [nodesUnderway, held]
    have known := invariant.genuine.nodes source underway
    rw [← ident] at known
    rw [← same source.value known]
    exact standsFor_made reads feeds stepped held queueing

/-- The stock of what was served does not depend on later nodes. -/
theorem stockOf_append (stock : Stock) {accepted later : List ProductNode}
    {messages : List (Tagged CString)}
    (known : ∀ data ∈ messages, ∃ node, accepted[data.ident]? = some node) :
    stockOf stock (accepted ++ later) messages =
      stockOf stock accepted messages := by
  have same : ∀ data ∈ messages,
      (accepted ++ later)[data.ident]? = accepted[data.ident]? := by
    intro data member
    obtain ⟨node, found⟩ := known data member
    rw [found]
    exact accepted_stays found later
  rw [stockOf, List.filterMap_congr same, stockOf]

end Reader

/-! ### Steps of the fridge -/

section Steps

variable {fridge next : Programs} {stock : Stock}

theorem Settled.known
    (settled : Settled parse print internalHeader stock fridge) :
    ∀ data ∈ fridge.reader.sent,
      ∃ node, fridge.reader.accepted[data.ident]? = some node := by
  intro data member
  obtain ⟨node, found, _⟩ :=
    settled.reader.genuine.messages data (List.mem_append_right _ member)
  exact ⟨node, found⟩

theorem Settled.served_known
    (settled : Settled parse print internalHeader stock fridge) :
    ∀ data ∈ fridge.served,
      ∃ node, fridge.reader.accepted[data.ident]? = some node := by
  intro data member
  refine settled.known data ?_
  rw [settled.sent]
  exact List.mem_append_left _ member

/-- The reader has moved, and the network and the daemon have not. -/
theorem Settled.read
    (reads : ReadsReader parse print raw)
    (settled : Settled parse print internalHeader stock fridge)
    {event : Pipeline.Event} (feeds : Feeds parse raw fridge.reader event)
    (stepped : read parse print fridge event = some next) :
    Settled parse print internalHeader stock next := by
  have isStep : ∃ reader,
      Pipeline.step parse print fridge.reader event = some reader ∧
        (∀ delivered, event ≠ .storerSend delivered) ∧
          next = { fridge with reader } := by
    cases event with
    | storerSend delivered => cases stepped
    | _ =>
        obtain ⟨reader, taken, rfl⟩ := Option.map_eq_some_iff.mp stepped
        refine ⟨reader, taken, ?_, rfl⟩
        intro delivered impossible
        cases impossible
  obtain ⟨reader, taken, notSend, rfl⟩ := isStep
  have effect :=
    step_effect settled.reader.idqFormed settled.reader.prqFormed taken
  obtain ⟨later, grown⟩ := accepted_effect effect
  exact
    { reader := invariant_step settled.reader taken
      standing :=
        standing_step reads settled.reader settled.standing feeds taken
      sent := (sent_stays settled.reader notSend taken).trans settled.sent
      whole := settled.whole
      counted := settled.counted
      agrees := by
        change
          Agrees fridge.daemon.tables
            (stockOf stock reader.accepted fridge.served)
        rw [grown, stockOf_append _ settled.served_known]
        exact settled.agrees }

/-- A successful attempt leaves a connection with the whole message. -/
theorem connection_of_success {data : Tagged CString} {calls : Calls}
    (succeeds : ¬ FailsOpenly calls)
    (taken : FitsAndIsTaken internalHeader data.value calls) :
    (sfSendProduct internalHeader data.value calls).retval = 0 ∧
      connection internalHeader data calls =
        [⟨some data, (internalHeader ++ data.value).bytes⟩] := by
  have attempt : sfSendProduct internalHeader data.value calls = _ :=
    Sending.sfSendProduct_of_not_failsOpenly succeeds
  have success :
      (sfSendProduct internalHeader data.value calls).retval = 0 := by
    rw [attempt]
  have whole :
      (sfSendProduct internalHeader data.value calls).handed =
        (internalHeader ++ data.value).bytes :=
    Sending.honestSuccess_iff.mpr (.inr taken) success
  have connected : ¬ (calls.sock = -1 ∨ calls.connect < 0) := by
    rintro (closed | refused)
    · exact succeeds (.inl closed)
    · exact succeeds (.inr (.inl refused))
  refine ⟨success, ?_⟩
  rw [connection, if_neg connected]
  simp only [success, whole, if_true]

/-- A failed attempt leaves at most a connection without a message. -/
theorem connection_of_failure {data : Tagged CString} {calls : Calls}
    (fails : FailsOpenly calls) :
    (sfSendProduct internalHeader data.value calls).retval ≠ 0 ∧
      ∀ made ∈ connection internalHeader data calls, made.data = none := by
  have retval : (sfSendProduct internalHeader data.value calls).retval = 1 :=
    Sending.retval_of_failsOpenly fails
  have failure :
      (sfSendProduct internalHeader data.value calls).retval ≠ 0 := by
    rw [retval]
    decide
  refine ⟨failure, ?_⟩
  intro made member
  rw [connection] at member
  split at member
  · cases member
  · rw [List.mem_singleton.mp member]
    exact if_neg failure

section Attempt

variable {reader : Pipeline.State} {made : List Connection}

/-- Connections without a message have been added. -/
theorem Settled.send_fails
    (settled : Settled parse print internalHeader stock fridge)
    (invariant : Invariant parse print reader)
    (standing : Standing parse internalHeader reader)
    (sent : reader.sent = fridge.reader.sent)
    (accepted : reader.accepted = fridge.reader.accepted)
    (unmarked : ∀ connection ∈ made, connection.data = none) :
    Settled parse print internalHeader stock
      { fridge with reader, network := fridge.network ++ made } where
  reader := invariant
  standing := standing
  sent := by
    have nothing : made.filterMap Connection.data = [] := by
      rw [List.filterMap_eq_nil_iff]
      exact unmarked
    rw [List.filterMap_append, nothing, List.append_nil]
    exact sent.trans settled.sent
  whole := by
    intro connection member message carries
    rcases List.mem_append.mp member with old | new
    · exact settled.whole connection old message carries
    · rw [unmarked connection new] at carries
      cases carries
  counted := settled.counted
  agrees := by
    rw [accepted]
    exact settled.agrees

/-- A connection with a whole message has been added. -/
theorem Settled.send_succeeds
    (settled : Settled parse print internalHeader stock fridge)
    (invariant : Invariant parse print reader)
    (standing : Standing parse internalHeader reader) {data : Tagged CString}
    (sent : reader.sent = fridge.reader.sent ++ [data])
    (accepted : reader.accepted = fridge.reader.accepted)
    (short : (internalHeader ++ data.value).bytes.length < maxLogsize)
    (whole : made = [⟨some data, (internalHeader ++ data.value).bytes⟩]) :
    Settled parse print internalHeader stock
      { fridge with reader, network := fridge.network ++ made } where
  reader := invariant
  standing := standing
  sent := by
    rw [sent, settled.sent, whole, List.filterMap_append, List.append_assoc]
    rfl
  whole := by
    intro connection member message carries
    rcases List.mem_append.mp member with old | new
    · exact settled.whole connection old message carries
    · rw [whole, List.mem_singleton] at new
      subst new
      cases carries
      exact ⟨rfl, short⟩
  counted := settled.counted
  agrees := by
    rw [accepted]
    exact settled.agrees

end Attempt

/-- The storer has tried to send what it holds. -/
theorem Settled.send
    (reads : ReadsReader parse print raw)
    (settled : Settled parse print internalHeader stock fridge) {calls : Calls}
    (sendsWell : ∀ data, fridge.reader.storer = .holding data →
      SendsWell internalHeader data.value calls)
    (stepped : send internalHeader fridge calls = some next) :
    Settled parse print internalHeader stock next := by
  simp only [Fridge.send] at stepped
  split at stepped
  · rename_i data held
    obtain ⟨reader, taken, rfl⟩ := Option.map_eq_some_iff.mp stepped
    have isStep :
        Pipeline.step parse print fridge.reader
            (.storerSend
              ((sfSendProduct internalHeader data.value calls).retval = 0)) =
          some reader := taken
    have invariant := invariant_step settled.reader isStep
    have feeds : Feeds parse raw fridge.reader
        (.storerSend
          ((sfSendProduct internalHeader data.value calls).retval = 0)) :=
      trivial
    have standing : Standing parse internalHeader reader :=
      standing_step reads settled.reader settled.standing feeds isStep
    simp only [storerSend, held] at taken
    by_cases fails : FailsOpenly calls
    · obtain ⟨failure, unmarked⟩ :
          (sfSendProduct internalHeader data.value calls).retval ≠ 0 ∧
            ∀ made ∈ connection internalHeader data calls,
              made.data = none :=
        connection_of_failure fails
      rw [if_neg (by simpa using failure)] at taken
      cases taken
      exact settled.send_fails invariant standing rfl rfl unmarked
    · have fits := (sendsWell data held).resolve_left fails
      obtain ⟨success, made⟩ := connection_of_success fails fits
      rw [if_pos (by simpa using success)] at taken
      cases taken
      exact
        settled.send_succeeds invariant standing rfl rfl fits.1 made
  · cases stepped

/-- Another program has connected. -/
theorem Settled.connect
    (settled : Settled parse print internalHeader stock fridge)
    (bytes : List UInt8) :
    Settled parse print internalHeader stock
      { fridge with network := fridge.network ++ [⟨none, bytes⟩] } where
  reader := settled.reader
  standing := settled.standing
  sent := by
    rw [List.filterMap_append]
    exact settled.sent.trans
      (congrArg (fridge.served ++ ·) (List.append_nil _).symm)
  whole := by
    intro made member message carries
    rcases List.mem_append.mp member with old | new
    · exact settled.whole made old message carries
    · rw [List.mem_singleton.mp new] at carries
      cases carries
  counted := settled.counted
  agrees := settled.agrees

/-- An operation without a failing call has its effect. -/
theorem effect_of_goes {operation : Operation} {state : Daemon.State}
    {after : Tables} (carried : CarriesOut operation.request state after)
    (goes : ¬ Fails state.script
      (callCount ((operationCall operation).changes state.tables))) :
    after = operation.request.effect state.tables := by
  cases carried with
  | nothing asked same =>
      cases operation with
      | insert product => cases asked
      | remove product => cases asked
  | call call own tables =>
      -- The call may be for another product only where that is removed alike.
      have sameChanges : call.changes state.tables =
          (operationCall operation).changes state.tables ∧
            call.effect state.tables =
              operation.request.effect state.tables := by
        cases operation with
        | insert product =>
            cases call with
            | dbInsert other =>
                cases own
                exact ⟨rfl, rfl⟩
            | dbRemove other => cases own
        | remove product =>
            cases call with
            | dbInsert other => cases own
            | dbRemove other =>
                have code : other.code = product.code :=
                  Request.remove.inj own
                exact ⟨congrArg Daemon.removeChanges code,
                  congrArg (Daemon.discard · state.tables) code⟩
      rcases perform_cases call state with
        ⟨fails, _⟩ | ⟨_, _, whole⟩
      · rw [sameChanges.1] at fails
        exact absurd fails goes
      · rw [tables, whole, sameChanges.2]

/-- A whole message without a failing call has the effect of its request. -/
theorem serve_request {message : CString} {sent : Int}
    {state last : Daemon.State} {operation : Operation}
    (asks : requested internalHeader parse message = some operation.request)
    (goes : ¬ Fails state.script
      (callCount ((operationCall operation).changes state.tables)))
    (served :
      serve internalHeader parse [⟨message.bytes, sent⟩] state = some last) :
    last.tables = operation.request.effect state.tables := by
  simp only [serve, CString.ofBuffer_bytes] at served
  split at served
  · split at served
    · cases served
    · rename_i result after decoded
      have handled :
          Daemon.handle internalHeader parse state ⟨message, sent⟩ =
            some after := by
        rw [Daemon.handle, decoded]
        rfl
      obtain ⟨other, same, carried⟩ := Daemon.handle_carriesOut handled
      obtain rfl : operation.request = other :=
        Option.some.inj (asks.symm.trans same)
      have effect := effect_of_goes carried goes
      split at served
      · cases served
        exact effect
      · split at served
        · cases served
          exact effect
        · cases served
          exact effect
  · cases served

section Oldest

variable {oldest : Connection} {rest : List Connection}
  {daemon : Daemon.State}

/-- The connections behind the oldest one are whole. -/
theorem Settled.rest_whole
    (settled : Settled parse print internalHeader stock fridge)
    (waiting : fridge.network = oldest :: rest) :
    ∀ other ∈ rest, ∀ message, other.data = some message →
      other.bytes = (internalHeader ++ message.value).bytes ∧
        other.bytes.length < maxLogsize := by
  intro other member
  refine settled.whole other ?_
  rw [waiting]
  exact List.mem_cons_of_mem oldest member

/-- The oldest connection was not the storer's, and changed nothing. -/
theorem Settled.serve_foreign
    (settled : Settled parse print internalHeader stock fridge)
    (waiting : fridge.network = oldest :: rest)
    (carried : oldest.data = none)
    (tables : daemon.tables = fridge.daemon.tables) :
    Settled parse print internalHeader stock
      { fridge with
        network := rest
        daemon
        served := fridge.served ++ oldest.data.toList } where
  reader := settled.reader
  standing := settled.standing
  sent := by
    have order := settled.sent
    rw [waiting, List.filterMap_cons, carried] at order
    rw [carried, Option.toList_none, List.append_nil]
    exact order
  whole := settled.rest_whole waiting
  counted := by
    rw [tables]
    exact settled.counted
  agrees := by
    rw [tables, carried, Option.toList_none, List.append_nil]
    exact settled.agrees

/-- The oldest connection carried a message, and its operation has been done. -/
theorem Settled.serve_message
    (settled : Settled parse print internalHeader stock fridge)
    (waiting : fridge.network = oldest :: rest) {data : Tagged CString}
    (carried : oldest.data = some data) {node : ProductNode}
    (known : fridge.reader.accepted[data.ident]? = some node)
    {operation : Operation}
    (stands :
      StandsFor parse internalHeader node data.value operation)
    (identified : Identified fridge.daemon.tables operation)
    (fits : Fits fridge.daemon.tables operation)
    (tables : daemon.tables = operation.request.effect fridge.daemon.tables) :
    Settled parse print internalHeader stock
      { fridge with
        network := rest
        daemon
        served := fridge.served ++ oldest.data.toList } where
  reader := settled.reader
  standing := settled.standing
  sent := by
    have order := settled.sent
    rw [waiting, List.filterMap_cons, carried] at order
    rw [carried, Option.toList_some, List.append_assoc]
    exact order
  whole := settled.rest_whole waiting
  counted := by
    rw [tables]
    exact counted_effect settled.counted stands.proper fits
  agrees := by
    have counts :
        stockOf stock fridge.reader.accepted (fridge.served ++ [data]) =
          operation.count
            (stockOf stock fridge.reader.accepted fridge.served) := by
      rw [stands.counts, stockOf, List.filterMap_append,
        List.foldl_append, List.filterMap_cons, known]
      rfl
    rw [tables, carried, Option.toList_some, counts]
    exact
      (agrees_effect_iff settled.counted settled.agrees stands.proper
        fits).mpr identified

end Oldest

/-- The daemon has served the oldest connection. -/
theorem Settled.serve
    (settled : Settled parse print internalHeader stock fridge)
    {chunks : List Chunk}
    (meets : Meets parse internalHeader raw fridge (.serve chunks))
    (stepped : serveNext parse internalHeader fridge chunks = some next) :
    Settled parse print internalHeader stock next := by
  simp only [serveNext] at stepped
  split at stepped
  · cases stepped
  · rename_i oldest rest waiting
    split at stepped
    · obtain ⟨daemon, served, rfl⟩ := Option.map_eq_some_iff.mp stepped
      cases carried : oldest.data with
      | none =>
          have foreign := (meets oldest rest waiting).2 carried
          obtain ⟨same, again, tables⟩ :=
            serve_quiet (fun chunk member => (foreign chunk member).1)
              (fun chunk member => (foreign chunk member).2) fridge.daemon
          obtain rfl : same = daemon :=
            Option.some.inj (again.symm.trans served)
          rw [← carried]
          exact settled.serve_foreign waiting carried tables
      | some data =>
          obtain ⟨⟨sent, rfl⟩, follows⟩ :=
            (meets oldest rest waiting).1 data carried
          have isSent : data ∈ fridge.reader.sent := by
            rw [settled.sent, waiting, List.filterMap_cons, carried]
            simp
          obtain ⟨node, known⟩ := settled.known data isSent
          obtain ⟨operation, stands⟩ :=
            settled.standing data (List.mem_append_right _ isSent) node known
          obtain ⟨identified, fits, goes⟩ := follows operation stands.asks
          obtain ⟨bytes, _⟩ :=
            settled.whole oldest (by rw [waiting]; exact List.mem_cons_self)
              data carried
          rw [bytes] at served
          rw [← carried]
          exact settled.serve_message waiting carried known stands identified
            fits (serve_request stands.asks goes served)
    · cases stepped

theorem Settled.step
    (reads : ReadsReader parse print raw)
    (settled : Settled parse print internalHeader stock fridge) {event : Event}
    (meets : Meets parse internalHeader raw fridge event)
    (stepped : step parse print internalHeader fridge event = some next) :
    Settled parse print internalHeader stock next := by
  cases event with
  | read event => exact settled.read reads meets stepped
  | send calls => exact settled.send reads meets stepped
  | connect bytes =>
      obtain rfl := Option.some.inj stepped
      exact settled.connect bytes
  | serve chunks => exact settled.serve meets stepped

theorem settled_start {idSize prSize : Int}
    (idLeast : minQueueSize ≤ idSize) (idMost : idSize ≤ maxQueueSize)
    (prLeast : minQueueSize ≤ prSize) (prMost : prSize ≤ maxQueueSize)
    (scanner : Scanner) {daemon : Daemon.State}
    (counted : Counted daemon.tables) (agrees : Agrees daemon.tables stock) :
    Settled parse print internalHeader stock
      (start idSize prSize scanner daemon) where
  reader := invariant_start idLeast idMost prLeast prMost scanner
  standing := by
    intro data member node found
    cases found
  sent := rfl
  whole := by
    intro made member
    cases member
  counted := counted
  agrees := agrees

end Steps

/-! ## Runs of the fridge -/

/--
The daemon is in line with the reader: messages are served in the order in
which they were sent and none of them twice, and the table holds the stock that
there was and the nodes that the served messages stem from.
-/
structure InLine (stock : Stock) (fridge : Programs) : Prop where
  order :
    fridge.reader.sent =
      fridge.served ++ fridge.network.filterMap Connection.data
  once : (fridge.served.map Tagged.ident).Nodup
  stock :
    Agrees fridge.daemon.tables
      (stockOf stock fridge.reader.accepted fridge.served)

theorem Settled.inLine {stock : Stock} {fridge : Programs}
    (settled : Settled parse print internalHeader stock fridge) :
    InLine stock fridge where
  order := settled.sent
  once := by
    rw [List.nodup_iff_count_le_one]
    intro ident
    have total := settled.reader.counted ident
    rw [occurrences] at total
    have atMost :
        (if ident < fridge.reader.accepted.length then 1 else 0) ≤ 1 := by
      split <;> simp
    have within :
        (fridge.served.map Tagged.ident).count ident ≤
          (occupants fridge.reader .sent).count ident := by
      rw [occupants, settled.sent, List.map_append, List.count_append]
      exact Nat.le_add_right _ _
    omega
  stock := settled.agrees

section Runs

variable (reads : ReadsReader parse print raw) {idSize prSize : Int}
  (idLeast : minQueueSize ≤ idSize) (idMost : idSize ≤ maxQueueSize)
  (prLeast : minQueueSize ≤ prSize) (prMost : prSize ≤ maxQueueSize)
  (scanner : Scanner) {daemon : Daemon.State} {stock : Stock}
  (counted : Counted daemon.tables) (agrees : Agrees daemon.tables stock)
  (events : List Event)
  (meets :
    StepsMeet (step parse print internalHeader) (Meets parse internalHeader raw)
      (start idSize prSize scanner daemon) events)
include reads idLeast idMost prLeast prMost counted agrees meets

/-- Steps that meet their conditions keep the invariant. -/
theorem settled_of_meets :
    StatesSatisfy (step parse print internalHeader)
      (Settled parse print internalHeader stock)
      (start idSize prSize scanner daemon) events :=
  statesSatisfy_of_stepsMeet
    (fun _ _ _ settled met stepped => settled.step reads met stepped)
    events
    (settled_start idLeast idMost prLeast prMost scanner counted agrees) meets

/--
In every run of the two programs and the network in which attempts to send
succeed only with the whole message, messages arrive whole, nodes and documents
can be stood for, and the table can follow operations of which no call fails,
the daemon is in line with the reader in every state.
-/
theorem fridge_follows_scans :
    StatesSatisfy (step parse print internalHeader) (InLine stock)
      (start idSize prSize scanner daemon) events := by
  have kept := settled_of_meets reads idLeast idMost prLeast prMost scanner
    counted agrees events meets
  exact kept.mono fun _ settled => settled.inLine

end Runs

/-! ### A carton that is scanned -/

/-- A code on its way from the camera to the daemon, in addition mode. -/
def additionDay : List Event :=
  [.read (.scan (.lit "8480017439482")), .read .decoderGet,
    .read (.decoderDownload (.fetched milkBuffer) (.lit "2024-01-01 10:00:00")),
    .read .decoderAdd, .read .storerGet, .send ⟨3, 0, 1000⟩,
    .serve [⟨(milkDelivery 1).msg.bytes, 0⟩]]

theorem milk_full : FullDocument (Json.parse Json.standardRaw) milkBuffer := by
  intro strJson document product opened parsed found
  cases milkBuffer_opened.symm.trans opened
  cases (Json.parse_printUnformatted Json.standardRaw_printable _).symm.trans
    parsed
  cases (milk_found _).symm.trans found
  refine ⟨milk_texts _, fun same => ?_⟩
  have empty : CString.lit "100g" = .empty :=
    Json.string.inj (Option.some.inj same)
  exact absurd empty (by decide)

theorem milk_fits : FitsAndIsTaken (.lit "!#+") milkText ⟨3, 0, 1000⟩ :=
  ⟨by decide +kernel, by decide +kernel⟩

theorem milk_sent :
    connection (.lit "!#+") ⟨0, milkText⟩ ⟨3, 0, 1000⟩ =
      [⟨some ⟨0, milkText⟩, (milkDelivery 1).msg.bytes⟩] :=
  (connection_of_success (by simp [FailsOpenly]) milk_fits).2

/-- The download of a node that is accepted. -/
theorem step_download {fridge : Programs} {node : Tagged ProductNode}
    {buffer now text : CString} (held : fridge.reader.decoder = .holding node)
    (adds : node.value.mode ≠ .remove)
    (made : documentMessage parse print now node.value buffer =
      some (.ok text)) :
    step parse print internalHeader fridge
        (.read (.decoderDownload (.fetched buffer) now)) =
      some
        { fridge with
          reader :=
            { fridge.reader with
              decoder := .queueing ⟨node.ident, text⟩ .add } } := by
  simp only [step, read, Pipeline.step_download held adds made,
    Option.map_some]

theorem additionDay_meets :
    StepsMeet
      (step (Json.parse Json.standardRaw) Json.printUnformatted (.lit "!#+"))
      (Meets (Json.parse Json.standardRaw) (.lit "!#+") Json.standardRaw)
      (start 100 100 .camera .start) additionDay := by
  have dated : CString.lit "2024-01-01 10:00:00" ≠ .empty := by decide
  intro scanned stepped
  refine ⟨trivial, ?_⟩
  cases stepped
  intro taken stepped
  refine ⟨trivial, ?_⟩
  cases stepped
  intro downloaded stepped
  constructor
  · intro node buffer held fetched
    cases held
    obtain rfl : milkBuffer = buffer := Download.fetched.inj fetched
    exact ⟨by decide, by decide, dated, milk_full⟩
  cases stepped.symm.trans (step_download rfl (by decide) milk_made)
  intro queued stepped
  refine ⟨trivial, ?_⟩
  cases stepped
  intro held stepped
  refine ⟨trivial, ?_⟩
  cases stepped
  intro sent stepped
  constructor
  · intro data held
    cases held
    exact .inr milk_fits
  cases stepped
  intro served stepped
  refine ⟨?_, trivial⟩
  intro oldest rest waiting
  have isSent := (List.cons.inj (milk_sent.symm.trans waiting)).1
  subst isSent
  constructor
  · intro data carried
    cases carried
    refine ⟨⟨0, rfl⟩, ?_⟩
    intro operation asks
    have same := (milk_requested 1).symm.trans asks
    cases operation with
    | remove product => cases same
    | insert product =>
        refine ⟨?_, ?_, Atomicity.not_fails_nil _⟩
        · rintro code _ ⟨row, present, _⟩
          exact absurd present (Table.not_mem_empty row)
        · intro _ row present
          exact absurd present (Table.not_mem_empty row)
  · intro carried
    cases carried

theorem counted_fresh : Counted Tables.fresh :=
  fun row present => absurd present (Table.not_mem_empty row)

theorem fridge_follows_scans_addition :
    StatesSatisfy
      (step (Json.parse Json.standardRaw) Json.printUnformatted (.lit "!#+"))
      (InLine noStock) (start 100 100 .camera .start) additionDay :=
  fridge_follows_scans (readsReader_json Json.standardRaw_printable)
    (by decide) (by decide) (by decide) (by decide) .camera counted_fresh
    agrees_start additionDay additionDay_meets

/-! ## The fridge at rest -/

/-- Nothing is on its way. -/
structure AtRest (fridge : Programs) : Prop where
  idQueue : fridge.reader.idq.contents = []
  decoder : fridge.reader.decoder.holds = []
  productQueue : fridge.reader.prq.contents = []
  storer : fridge.reader.storer.data = []
  network : fridge.network = []

/-- Every accepted node was served or given up, and was so once. -/
theorem Settled.partition {stock : Stock} {fridge : Programs}
    (settled : Settled parse print internalHeader stock fridge)
    (rest : AtRest fridge) :
    (fridge.served.map Tagged.ident ++ fridge.reader.discarded).Perm
      (List.range fridge.reader.accepted.length) := by
  rw [List.perm_iff_count]
  intro ident
  have total := settled.reader.counted ident
  have served : fridge.reader.sent = fridge.served := by
    rw [settled.sent, rest.network]
    exact List.append_nil _
  simp only [occurrences, occupants, rest.idQueue, rest.decoder,
    rest.productQueue, rest.storer, served, List.map_nil, List.count_nil,
    Nat.zero_add] at total
  rw [List.count_append, total, List.nodup_range.count]
  simp only [List.mem_range]

/-- The number of pieces of a code that a node stands for. -/
def pieces (code : CString) (node : ProductNode) : ℤ :=
  if node.code = code then node.number.toInt else 0

/-- The pieces of a code in the accepted node of some number. -/
def piecesAt (accepted : List ProductNode) (code : CString) (ident : Nat) :
    ℤ :=
  ((accepted[ident]?).map (pieces code)).getD 0

theorem sum_piecesAt (accepted : List ProductNode) (code : CString) :
    ((List.range accepted.length).map (piecesAt accepted code)).sum =
      (accepted.map (pieces code)).sum := by
  have same :
      (List.range accepted.length).map (piecesAt accepted code) =
        accepted.map (pieces code) := by
    refine List.ext_getElem (by simp) ?_
    intro i _ inside
    have known : i < accepted.length := by simpa using inside
    simp [piecesAt, List.getElem?_eq_getElem known]
  rw [same]

/-- Additions sum up, by induction on the nodes. -/
theorem stock_additions (code : CString) (nodes : List ProductNode)
    (additions : ∀ node ∈ nodes, node.mode = .add) (stock : Stock) :
    (nodes.foldl nodeCount stock code).getD 0 =
      (stock code).getD 0 + (nodes.map (pieces code)).sum := by
  induction nodes generalizing stock with
  | nil => simp
  | cons node rest ih =>
      have adds := additions node List.mem_cons_self
      have restAdds : ∀ node ∈ rest, node.mode = .add :=
        fun other member => additions other (List.mem_cons_of_mem node member)
      rw [List.foldl_cons, ih restAdds, List.map_cons, List.sum_cons,
        ← Int.add_assoc]
      congr 1
      simp only [nodeCount, adds, pieces]
      by_cases same : node.code = code
      · rw [same, Function.update_self, if_pos rfl, Option.getD_some]
      · rw [Function.update_of_ne (Ne.symm same), if_neg same, Int.add_zero]

theorem sum_served {accepted : List ProductNode} (code : CString)
    {messages : List (Tagged CString)}
    (known : ∀ data ∈ messages, ∃ node, accepted[data.ident]? = some node) :
    ((messages.filterMap fun data => accepted[data.ident]?).map
        (pieces code)).sum =
      ((messages.map Tagged.ident).map (piecesAt accepted code)).sum := by
  induction messages with
  | nil => rfl
  | cons data rest ih =>
      obtain ⟨node, found⟩ := known data List.mem_cons_self
      have restKnown : ∀ other ∈ rest,
          ∃ node, accepted[other.ident]? = some node :=
        fun other member => known other (List.mem_cons_of_mem data member)
      rw [List.filterMap_cons, found]
      simp only [List.map_cons, List.sum_cons]
      rw [ih restKnown, piecesAt, found]
      rfl

theorem Settled.accounted {stock : Stock} {fridge : Programs}
    (settled : Settled parse print internalHeader stock fridge)
    (rest : AtRest fridge)
    (additions : ∀ node ∈ fridge.reader.accepted, node.mode = .add)
    (code : CString) :
    (fridge.daemon.tables.stock code).getD 0 +
        ((fridge.reader.discarded.map
          (piecesAt fridge.reader.accepted code)).sum : ℚ) =
      ((stock code).getD 0 + (fridge.reader.accepted.map (pieces code)).sum :
        ℤ) := by
  have nodesAdd : ∀ node ∈ fridge.served.filterMap
      (fun data => fridge.reader.accepted[data.ident]?), node.mode = .add := by
    intro node member
    obtain ⟨data, _, found⟩ := List.mem_filterMap.mp member
    exact additions node (List.mem_of_getElem? found)
  have stored :
      (stockOf stock fridge.reader.accepted fridge.served code).getD 0 =
        (stock code).getD 0 +
          ((fridge.served.map Tagged.ident).map
            (piecesAt fridge.reader.accepted code)).sum := by
    rw [stockOf, stock_additions code _ nodesAdd stock,
      sum_served code settled.served_known]
  have whole :
      ((fridge.served.map Tagged.ident).map
            (piecesAt fridge.reader.accepted code)).sum +
          (fridge.reader.discarded.map
            (piecesAt fridge.reader.accepted code)).sum =
        (fridge.reader.accepted.map (pieces code)).sum := by
    have permuted :=
      ((settled.partition rest).map
        (piecesAt fridge.reader.accepted code)).sum_eq
    rwa [List.map_append, List.sum_append, sum_piecesAt] at permuted
  rw [← whole, ← Int.add_assoc, ← stored, Int.cast_add, settled.agrees code]
  cases stockOf stock fridge.reader.accepted fridge.served code <;> simp

/--
When nothing is on its way any more, each accepted node was served or given up,
exactly once, and what was given up is in the log.  If nothing was to be
removed, the pieces of a code that there were and that were accepted are those
that the daemon has stored and those that were given up, whatever the order of
the messages.
-/
theorem fridge_at_rest
    (reads : ReadsReader parse print raw) {idSize prSize : Int}
    (idLeast : minQueueSize ≤ idSize) (idMost : idSize ≤ maxQueueSize)
    (prLeast : minQueueSize ≤ prSize) (prMost : prSize ≤ maxQueueSize)
    (scanner : Scanner) {daemon : Daemon.State} {stock : Stock}
    (counted : Counted daemon.tables) (agrees : Agrees daemon.tables stock)
    (events : List Event)
    (meets :
      StepsMeet (step parse print internalHeader)
        (Meets parse internalHeader raw) (start idSize prSize scanner daemon)
        events)
    {fridge : Programs}
    (reached :
      run (step parse print internalHeader)
          (start idSize prSize scanner daemon) events =
        some fridge)
    (rest : AtRest fridge) :
    (fridge.served.map Tagged.ident ++ fridge.reader.discarded).Perm
        (List.range fridge.reader.accepted.length) ∧
      LossesReported fridge.reader ∧
      ((∀ node ∈ fridge.reader.accepted, node.mode = .add) →
        ∀ code,
          (fridge.daemon.tables.stock code).getD 0 +
              ((fridge.reader.discarded.map
                (piecesAt fridge.reader.accepted code)).sum : ℚ) =
            ((stock code).getD 0 +
              (fridge.reader.accepted.map (pieces code)).sum : ℤ)) := by
  have kept := settled_of_meets reads idLeast idMost prLeast prMost scanner
    counted agrees events meets
  have settled : Settled parse print internalHeader stock fridge :=
    (statesSatisfy_iff_past _ _ _ _).mp kept events List.prefix_rfl fridge
      reached
  exact
    ⟨settled.partition rest, settled.reader.reported, settled.accounted rest⟩

/-- A connection whose bytes arrive is served. -/
theorem step_serve {fridge : Programs} {oldest : Connection}
    {rest : List Connection} (waiting : fridge.network = oldest :: rest)
    {chunks : List Chunk}
    (part : (chunks.map Chunk.bytes).flatten <+: oldest.bytes)
    {daemon : Daemon.State}
    (served : serve internalHeader parse chunks fridge.daemon = some daemon) :
    step parse print internalHeader fridge (.serve chunks) =
      some
        { fridge with
          network := rest
          daemon
          served := fridge.served ++ oldest.data.toList } := by
  simp only [step, serveNext, waiting, if_pos part, served, Option.map_some]

/-- The carton has come to the daemon, and nothing is on its way. -/
theorem additionDay_ends :
    ∃ fridge,
      run
          (step (Json.parse Json.standardRaw) Json.printUnformatted
            (.lit "!#+"))
          (start 100 100 .camera .start) additionDay =
        some fridge ∧
      AtRest fridge ∧ fridge.served.map Tagged.ident = [0] := by
  have returns :
      sfPrDecoder (Json.parse Json.standardRaw) milkText ≠ none :=
    (MessageParts.Sends.addition (milk_accepted _ _ _ _)).returns
      Json.standardRaw_printable (MessageParts.readsObjects_json _ _)
  obtain ⟨daemon, served, _⟩ := serve_whole returns milk_fits.1 0 .start
  have whole :
      ([⟨(milkDelivery 1).msg.bytes, 0⟩].map Chunk.bytes).flatten <+:
        (milkDelivery 1).msg.bytes := by
    simp
  refine ⟨_, (run_cons ..).mpr ⟨_, rfl, (run_cons ..).mpr ⟨_, rfl,
    (run_cons ..).mpr ⟨_, step_download rfl (by decide) milk_made,
      (run_cons ..).mpr ⟨_, rfl, (run_cons ..).mpr ⟨_, rfl,
        (run_cons ..).mpr ⟨_, rfl, (run_cons ..).mpr
          ⟨_, step_serve milk_sent whole served, rfl⟩⟩⟩⟩⟩⟩⟩,
    ⟨rfl, rfl, rfl, rfl, rfl⟩, rfl⟩

theorem fridge_at_rest_addition :
    ∃ fridge,
      run
          (step (Json.parse Json.standardRaw) Json.printUnformatted
            (.lit "!#+"))
          (start 100 100 .camera .start) additionDay =
        some fridge ∧
      fridge.served.map Tagged.ident = [0] ∧
        (fridge.served.map Tagged.ident ++ fridge.reader.discarded).Perm
            (List.range fridge.reader.accepted.length) ∧
          LossesReported fridge.reader ∧
          ((∀ node ∈ fridge.reader.accepted, node.mode = .add) →
            ∀ code,
              (fridge.daemon.tables.stock code).getD 0 +
                  ((fridge.reader.discarded.map
                    (piecesAt fridge.reader.accepted code)).sum : ℚ) =
                ((noStock code).getD 0 +
                  (fridge.reader.accepted.map (pieces code)).sum : ℤ)) := by
  obtain ⟨fridge, reached, rest, served⟩ := additionDay_ends
  exact
    ⟨fridge, reached, served,
      fridge_at_rest (readsReader_json Json.standardRaw_printable)
        (by decide) (by decide) (by decide) (by decide) .camera counted_fresh
        agrees_start additionDay additionDay_meets reached rest⟩

end Programs

end SmartFridge.Fridge
