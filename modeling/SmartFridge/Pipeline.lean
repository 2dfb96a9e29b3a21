import SmartFridge.QueueRing
import SmartFridge.Reader

/-!
# The reader as three parties

The scanner, the decoder and the storer take atomic steps on two shared queues
and on the flag `execution_ends`: each queue operation, each access to the flag,
each download with its decoding and each attempt to send is one step.  Steps
without a result in the source have none here: a decoder that reads a NULL
string ends the program.

The state carries three histories that the program does not have: the accepted
nodes, whose positions identify them, the messages that were sent, and the
nodes that the decoder gave up.
-/

namespace SmartFridge.Pipeline

open SmartFridge.Library
open SmartFridge.ProductDecoder
open SmartFridge.QueueRing
open SmartFridge.Reader

/-- A value with the position of the node it stems from. -/
structure Tagged (α : Type) where
  ident : Nat
  value : α
deriving DecidableEq

/-- What is written to the log at the levels that are always on. -/
inductive LogEntry where
  | fullQueue (id : Option CString)
  | socketFormatError (msg : CString)
  | testModeEnd
  | decoderEnd
  | downloadFileError (url : CString)
  | invalidFileFormat
  | unexpectedFields
  | productNotFound (code : CString)
  | invalidFile (code : CString)
  | productSendError
  | storerEnd
deriving DecidableEq

/-- An entry and the node in whose course it was written, if there is one. -/
structure LogRecord where
  about : Option Nat
  entry : LogEntry
deriving DecidableEq

/-- Where the scanner takes its codes from, and what comes after it. -/
inductive Scanner where
  | camera
  | socket
  | file (whole rest : List CString) (repeats : Bool)
  | finished
  | ended
deriving DecidableEq

/-- The point that the loop of `sf_decoder` has reached. -/
inductive Decoder where
  | fetch
  | empty
  | holding (node : Tagged ProductNode)
  | queueing (message : Tagged CString) (mode : DbMode)
  | stopped
deriving DecidableEq

/-- The point that the loop of `sf_storer` has reached. -/
inductive Storer where
  | fetch
  | empty
  | holding (data : Tagged CString)
  | stopped
deriving DecidableEq

/-- The node that the decoder has taken. -/
def Decoder.node : Decoder → List (Tagged ProductNode)
  | .holding node => [node]
  | _ => []

/-- The message that the decoder has made of it. -/
def Decoder.message : Decoder → List (Tagged CString)
  | .queueing message _ => [message]
  | _ => []

/-- What is in the hands of the decoder. -/
def Decoder.holds (decoder : Decoder) : List Nat :=
  decoder.node.map Tagged.ident ++ decoder.message.map Tagged.ident

@[simp]
theorem Decoder.node_fetch : Decoder.fetch.node = [] :=
  rfl

@[simp]
theorem Decoder.node_holding (node : Tagged ProductNode) :
    (Decoder.holding node).node = [node] :=
  rfl

@[simp]
theorem Decoder.node_queueing (message : Tagged CString) (mode : DbMode) :
    (Decoder.queueing message mode).node = [] :=
  rfl

@[simp]
theorem Decoder.message_fetch : Decoder.fetch.message = [] :=
  rfl

@[simp]
theorem Decoder.message_holding (node : Tagged ProductNode) :
    (Decoder.holding node).message = [] :=
  rfl

@[simp]
theorem Decoder.message_queueing (message : Tagged CString) (mode : DbMode) :
    (Decoder.queueing message mode).message = [message] :=
  rfl

@[simp]
theorem Decoder.holds_fetch : Decoder.fetch.holds = [] :=
  rfl

@[simp]
theorem Decoder.holds_holding (node : Tagged ProductNode) :
    (Decoder.holding node).holds = [node.ident] :=
  rfl

@[simp]
theorem Decoder.holds_queueing (message : Tagged CString) (mode : DbMode) :
    (Decoder.queueing message mode).holds = [message.ident] :=
  rfl

theorem Decoder.holds_eq_nil {decoder : Decoder} :
    decoder.holds = [] ↔ decoder.node = [] ∧ decoder.message = [] := by
  simp [Decoder.holds]

/-- The message that the storer keeps in `data`. -/
def Storer.data : Storer → List (Tagged CString)
  | .holding data => [data]
  | _ => []

@[simp]
theorem Storer.data_fetch : Storer.fetch.data = [] :=
  rfl

@[simp]
theorem Storer.data_holding (data : Tagged CString) :
    (Storer.holding data).data = [data] :=
  rfl

/-- The entries that report the loss of a product. -/
def LogEntry.ReportsLoss : LogEntry → Prop
  | .downloadFileError _ => True
  | .invalidFile _ => True
  | .productNotFound _ => True
  | .fullQueue _ => True
  | _ => False

structure State where
  idq : Queue (Tagged ProductNode)
  prq : Queue (Tagged CString)
  scanner : Scanner
  dbMode : DbMode
  executionEnds : Bool
  decoder : Decoder
  storer : Storer
  log : List LogRecord
  accepted : List ProductNode
  sent : List (Tagged CString)
  discarded : List Nat

/-- The result of `sf_download_file`. -/
inductive Download where
  | failed
  | fetched (buffer : CString)

/-- The steps of the parties, with what the environment decides. -/
inductive Event where
  | scan (symbol : CString)
  | receive (msg : CString)
  | readLine
  | closeCamera
  | switchMode
  | setExecutionEnds
  | decoderGet
  | decoderReadEnds
  | decoderFormat
  | decoderDownload (download : Download) (now : CString)
  | decoderAdd
  | storerGet
  | storerReadEnds
  | storerSend (delivered : Bool)

/-! ## The scanner -/

/-- The record of an entry that is about no accepted node. -/
def State.logs (state : State) (entry : LogEntry) : State :=
  { state with log := state.log ++ [⟨none, entry⟩] }

/-- `sf_queue_add` of a node, which is freed if the queue is full. -/
def offer (node : ProductNode) (state : State) : State :=
  let (result, idq) :=
    sfQueueAdd state.idq (some ⟨state.accepted.length, node⟩)
  if result = 0 then
    { state with idq, accepted := state.accepted ++ [node] }
  else
    { state with idq }.logs (.fullQueue (some node.code))

/-- One symbol in `z_handler`. -/
def scan (symbol : CString) (state : State) : Option State :=
  match state.scanner with
  | .camera => some (offer (cameraNode state.dbMode symbol) state)
  | _ => none

/-- One message in the socket mode of `sf_bar_handler`. -/
def receive (msg : CString) (state : State) : Option State :=
  match state.scanner with
  | .socket =>
      match socketNode state.dbMode msg with
      | some node => some (offer node state)
      | none => some (state.logs (.socketFormatError msg))
  | _ => none

/-- One turn of the test mode of `sf_bar_handler`. -/
def readLine (state : State) : Option State :=
  match state.scanner with
  | .file whole (line :: rest) repeats =>
      let state := { state with scanner := .file whole rest repeats }
      match testNode state.dbMode line with
      | some node => some (offer node state)
      | none => some state
  | .file whole [] true =>
      some { state with scanner := .file whole whole true }
  | .file _ [] false =>
      some ({ state with scanner := .finished }.logs .testModeEnd)
  | _ => none

/-- The window of the camera is closed. -/
def closeCamera (state : State) : Option State :=
  match state.scanner with
  | .camera => some { state with scanner := .finished }
  | _ => none

/-- SIGTSTP, which is handled in camera mode only. -/
def switchMode (state : State) : Option State :=
  match state.scanner with
  | .camera => some { state with dbMode := keyHandler state.dbMode }
  | _ => none

/-- `execution_ends = 1` behind the return of `sf_bar_handler`. -/
def setExecutionEnds (state : State) : Option State :=
  match state.scanner with
  | .finished =>
      some { state with scanner := .ended, executionEnds := true }
  | _ => none

/-! ## The decoder -/

/-- `node = sf_queue_get(idq)`. -/
def decoderGet (state : State) : Option State :=
  match state.decoder with
  | .fetch =>
      match sfQueueGet state.idq with
      | (some node, idq) => some { state with idq, decoder := .holding node }
      | (none, idq) => some { state with idq, decoder := .empty }
  | _ => none

/-- The test of `execution_ends` behind an empty queue. -/
def decoderReadEnds (state : State) : Option State :=
  match state.decoder with
  | .empty =>
      if state.executionEnds then
        some ({ state with decoder := .stopped }.logs .decoderEnd)
      else
        some { state with decoder := .fetch }
  | _ => none

/-- The deletion message of a node that is to be removed. -/
def decoderFormat (state : State) : Option State :=
  match state.decoder with
  | .holding ⟨ident, node⟩ =>
      if node.mode = .remove then
        some { state with
          decoder := .queueing ⟨ident, removeMsg node.code⟩ .remove }
      else
        none
  | _ => none

/-- The node is freed; what was logged in its course is kept. -/
def State.givesUp (state : State) (ident : Nat) (entries : List LogEntry) :
    State :=
  { state with
    decoder := .fetch
    discarded := state.discarded ++ [ident]
    log := state.log ++ entries.map fun entry => ⟨some ident, entry⟩ }

/-- The entries about a document that was not accepted. -/
def refusal (result : Int) (code : CString) : List LogEntry :=
  if result = prNotFound then [.productNotFound code]
  else if result = invFormat then [.invalidFileFormat, .invalidFile code]
  else if result = unexFields then [.unexpectedFields, .invalidFile code]
  else [.invalidFile code]

section Decoding

variable (parse : CString → Option Json) (print : Json → CString)

/--
The message of a downloaded document or the entries about its refusal; none if
a NULL string is read.
-/
def documentMessage (now : CString) (node : ProductNode) (buffer : CString) :
    Option (Except (List LogEntry) CString) :=
  match buffer.strchr Json.openBrace with
  | none => some (.error [.invalidFile node.code])
  | some strJson =>
      match sfPrRawDecoder parse now strJson node.number node.code with
      | none => none
      | some (result, object) =>
          if result ≠ noError then
            some (.error (refusal result node.code))
          else
            object.map fun decoded => .ok (print decoded)

/-- The download of a node that is to be added, and its decoding. -/
def decoderDownload (download : Download) (now : CString) (state : State) :
    Option State :=
  match state.decoder with
  | .holding ⟨ident, node⟩ =>
      if node.mode = .remove then
        none
      else
        match download with
        | .failed =>
            some (state.givesUp ident [.downloadFileError (ofApi node.code)])
        | .fetched buffer =>
            match documentMessage parse print now node buffer with
            | none => none
            | some (.error entries) => some (state.givesUp ident entries)
            | some (.ok message) =>
                some { state with decoder := .queueing ⟨ident, message⟩ .add }
  | _ => none

end Decoding

/-- The string in the warning, which is still NULL for a deletion. -/
def fullQueueText (message : CString) : DbMode → Option CString
  | .add => some message
  | .remove => none

/-- `sf_queue_add` of a message, which is lost if the queue is full. -/
def decoderAdd (state : State) : Option State :=
  match state.decoder with
  | .queueing message mode =>
      let (result, prq) := sfQueueAdd state.prq (some message)
      if result = 0 then
        some { state with prq, decoder := .fetch }
      else
        some ({ state with prq }.givesUp message.ident
          [.fullQueue (fullQueueText message.value mode)])
  | _ => none

/-! ## The storer -/

/-- `data = sf_queue_get(prq)`. -/
def storerGet (state : State) : Option State :=
  match state.storer with
  | .fetch =>
      match sfQueueGet state.prq with
      | (some data, prq) => some { state with prq, storer := .holding data }
      | (none, prq) => some { state with prq, storer := .empty }
  | _ => none

/-- The test of `execution_ends` behind an empty queue. -/
def storerReadEnds (state : State) : Option State :=
  match state.storer with
  | .empty =>
      if state.executionEnds then
        some ({ state with storer := .stopped }.logs .storerEnd)
      else
        some { state with storer := .fetch }
  | _ => none

/-- An attempt of `sf_send_product`; `data` is kept if it fails. -/
def storerSend (delivered : Bool) (state : State) : Option State :=
  match state.storer with
  | .holding data =>
      if delivered then
        some { state with storer := .fetch, sent := state.sent ++ [data] }
      else
        some (state.logs .productSendError)
  | _ => none

/-! ## The program -/

/-- The state behind the creation of the threads. -/
def start (idSize prSize : Int) (scanner : Scanner) : State :=
  let cleared {α : Type} : Queue α := ⟨[], 0, 0, 0⟩
  { idq := (sfQueueSet cleared idSize).2
    prq := (sfQueueSet cleared prSize).2
    scanner
    dbMode := .add
    executionEnds := false
    decoder := .fetch
    storer := .fetch
    log := []
    accepted := []
    sent := []
    discarded := [] }

/-- One step of one party. -/
def step (parse : CString → Option Json) (print : Json → CString)
    (state : State) : Event → Option State
  | .scan symbol => scan symbol state
  | .receive msg => receive msg state
  | .readLine => readLine state
  | .closeCamera => closeCamera state
  | .switchMode => switchMode state
  | .setExecutionEnds => setExecutionEnds state
  | .decoderGet => decoderGet state
  | .decoderReadEnds => decoderReadEnds state
  | .decoderFormat => decoderFormat state
  | .decoderDownload download now =>
      decoderDownload parse print download now state
  | .decoderAdd => decoderAdd state
  | .storerGet => storerGet state
  | .storerReadEnds => storerReadEnds state
  | .storerSend delivered => storerSend delivered state

/-- The download of a document that is accepted. -/
theorem step_download {parse : CString → Option Json} {print : Json → CString}
    {state : State} {node : Tagged ProductNode} {buffer now text : CString}
    (held : state.decoder = .holding node) (adds : node.value.mode ≠ .remove)
    (made : documentMessage parse print now node.value buffer =
      some (.ok text)) :
    step parse print state (.decoderDownload (.fetched buffer) now) =
      some { state with decoder := .queueing ⟨node.ident, text⟩ .add } := by
  simp only [step, decoderDownload, held, if_neg adds, made]

end SmartFridge.Pipeline
