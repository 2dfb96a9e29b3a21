import SmartFridge.Library.LockedCalls
import SmartFridge.QueueLock
import SmartFridge.PipelineConservation

/-!
# The reader with its locks

The three threads of the reader with every queue operation taken apart: a
thread waits for `queue_lock`, accesses the queue step by step, and goes on
when it has released the lock, while the other threads and the signal handler
do as they please.  A node that the scanner has created is in its hands until
`sf_queue_add` returns.

Each run of these threads is a run of the three parties with atomic queue
operations.
-/

namespace SmartFridge.LockedReader

open SmartFridge.Library
open SmartFridge.Library.LockedCalls
open SmartFridge.Pipeline
open SmartFridge.PipelineConservation
open SmartFridge.ProductDecoder
open SmartFridge.QueueLock
open SmartFridge.QueueRing
open SmartFridge.Reader

/-- The thread of `main`, and the two that it creates. -/
inductive Party where
  | scanner
  | decoder
  | storer
deriving DecidableEq

/-- The two queues. -/
inductive Which where
  | idq
  | prq
deriving DecidableEq

/-- What the queues hold. -/
def Value : Which → Type
  | .idq => Tagged ProductNode
  | .prq => Tagged CString

/-- The reader between its queue operations. -/
structure Reader where
  state : State
  offering : Option ProductNode

/-- The two queues of the reader. -/
def queues (reader : Reader) : (which : Which) → Queue (Value which)
  | .idq => reader.state.idq
  | .prq => reader.state.prq

/-- The state with other queues. -/
def withQueues (state : State)
    (values : (which : Which) → Queue (Value which)) : State :=
  { state with idq := values .idq, prq := values .prq }

/-- A step of `Pipeline` that uses no queue, while no node is offered. -/
def Reader.scans (reader : Reader) (next : State → Option State) :
    Option Reader :=
  match reader.offering with
  | none => (next reader.state).map fun state => { reader with state }
  | some _ => none

/-- A step of another party that uses no queue. -/
def Reader.goes (reader : Reader) (next : State → Option State) :
    Option Reader :=
  (next reader.state).map fun state => { reader with state }

/-- One turn of the test mode up to `sf_queue_add`. -/
def readLine (reader : Reader) : Option Reader :=
  match reader.offering, reader.state.scanner with
  | none, .file whole (line :: rest) repeats =>
      some
        { state := { reader.state with scanner := .file whole rest repeats }
          offering := testNode reader.state.dbMode line }
  | none, _ => reader.scans Pipeline.readLine
  | some _, _ => none

/-- One symbol in `z_handler` up to `sf_queue_add`. -/
def scan (symbol : CString) (reader : Reader) : Option Reader :=
  match reader.offering, reader.state.scanner with
  | none, .camera =>
      some { reader with
        offering := some (cameraNode reader.state.dbMode symbol) }
  | _, _ => none

/-- One message in the socket mode up to `sf_queue_add`. -/
def receive (msg : CString) (reader : Reader) : Option Reader :=
  match reader.offering, reader.state.scanner with
  | none, .socket =>
      match socketNode reader.state.dbMode msg with
      | some node => some { reader with offering := some node }
      | none =>
          some { reader with
            state := reader.state.logs (.socketFormatError msg) }
  | _, _ => none

section Threads

variable (parse : CString → Option Json) (print : Json → CString)

/-- What the parties and the signal handler do between queue operations. -/
def move (reader : Reader) : Event → Option Reader
  | .scan symbol => scan symbol reader
  | .receive msg => receive msg reader
  | .readLine => readLine reader
  | .closeCamera => reader.scans closeCamera
  | .switchMode => reader.goes switchMode
  | .setExecutionEnds => reader.scans setExecutionEnds
  | .decoderGet => none
  | .decoderReadEnds => reader.goes decoderReadEnds
  | .decoderFormat => reader.goes decoderFormat
  | .decoderDownload download now =>
      reader.goes (decoderDownload parse print download now)
  | .decoderAdd => none
  | .storerGet => none
  | .storerReadEnds => reader.goes storerReadEnds
  | .storerSend delivered => reader.goes (storerSend delivered)

/-- The queue operation that the party has come to. -/
def request (reader : Reader) :
    Party → Option (Sigma fun which => Op (Value which))
  | .scanner =>
      reader.offering.map fun node =>
        ⟨.idq, .add (some (⟨reader.state.accepted.length, node⟩ :
          Tagged ProductNode))⟩
  | .decoder =>
      match reader.state.decoder with
      | .fetch => some ⟨.idq, .get⟩
      | .queueing message _ =>
          some ⟨.prq, .add (some (message : Tagged CString))⟩
      | _ => none
  | .storer =>
      match reader.state.storer with
      | .fetch => some ⟨.prq, .get⟩
      | _ => none

/-- The scanner behind `sf_queue_add`. -/
def offered (reader : Reader) (result : Int) : Reader :=
  match reader.offering with
  | some node =>
      { state :=
          if result = 0 then
            { reader.state with accepted := reader.state.accepted ++ [node] }
          else
            reader.state.logs (.fullQueue (some node.code))
        offering := none }
  | none => reader

/-- The decoder behind `sf_queue_get`. -/
def fetched (reader : Reader) : Option (Tagged ProductNode) → Reader
  | some node =>
      { reader with state := { reader.state with decoder := .holding node } }
  | none => { reader with state := { reader.state with decoder := .empty } }

/-- The decoder behind `sf_queue_add`. -/
def queued (reader : Reader) (result : Int) : Reader :=
  match reader.state.decoder with
  | .queueing message mode =>
      { reader with
        state :=
          if result = 0 then
            { reader.state with decoder := .fetch }
          else
            reader.state.givesUp message.ident
              [.fullQueue (fullQueueText message.value mode)] }
  | _ => reader

/-- The storer behind `sf_queue_get`. -/
def taken (reader : Reader) : Option (Tagged CString) → Reader
  | some data =>
      { reader with state := { reader.state with storer := .holding data } }
  | none => { reader with state := { reader.state with storer := .empty } }

/-- How a party goes on with the result of its operation. -/
def respond (reader : Reader) (party : Party) (which : Which)
    (res : Res (Value which)) : Reader :=
  match party, which, res with
  | .scanner, .idq, .retval result => offered reader result
  | .decoder, .idq, .value node => fetched reader node
  | .decoder, .prq, .retval result => queued reader result
  | .storer, .prq, .value data => taken reader data
  | _, _, _ => reader

/-! ## What the steps leave alone -/

/-- The step neither reads nor writes what the change replaces. -/
def Frames (next : State → Option State) (change : State → State) : Prop :=
  ∀ state, next (change state) = (next state).map change

/-- The scanner and the mode are of no interest to the other parties. -/
def dressed (state : State) (scanner : Scanner) (dbMode : DbMode) : State :=
  { state with scanner, dbMode }

variable (values : (which : Which) → Queue (Value which))
  (scanner : Scanner) (dbMode : DbMode)

theorem closeCamera_frames :
    Frames closeCamera (fun state => withQueues state values) := by
  intro state
  simp only [closeCamera, withQueues]
  split <;> rfl

theorem switchMode_frames :
    Frames switchMode (fun state => withQueues state values) := by
  intro state
  simp only [switchMode, withQueues]
  split <;> rfl

theorem setExecutionEnds_frames :
    Frames setExecutionEnds (fun state => withQueues state values) := by
  intro state
  simp only [setExecutionEnds, withQueues]
  split <;> rfl

theorem decoderReadEnds_frames :
    Frames decoderReadEnds (fun state => withQueues state values) := by
  intro state
  cases state with
  | mk _ _ _ _ executionEnds decoder storer _ _ _ _ =>
      cases decoder <;> cases executionEnds <;> rfl

theorem decoderReadEnds_frames_dress :
    Frames decoderReadEnds (fun state => dressed state scanner dbMode) := by
  intro state
  cases state with
  | mk _ _ _ _ executionEnds decoder storer _ _ _ _ =>
      cases decoder <;> cases executionEnds <;> rfl

theorem decoderFormat_frames :
    Frames decoderFormat (fun state => withQueues state values) := by
  intro state
  simp only [decoderFormat, withQueues]
  split
  · rename_i ident node _
    by_cases removes : node.mode = .remove
    · simp only [if_pos removes, Option.map_some]
    · simp only [if_neg removes, Option.map_none]
  · rfl

theorem decoderFormat_frames_dress :
    Frames decoderFormat (fun state => dressed state scanner dbMode) := by
  intro state
  simp only [decoderFormat, dressed]
  split
  · rename_i ident node _
    by_cases removes : node.mode = .remove
    · simp only [if_pos removes, Option.map_some]
    · simp only [if_neg removes, Option.map_none]
  · rfl

theorem decoderDownload_frames (download : Download) (now : CString) :
    Frames (decoderDownload parse print download now)
      (fun state => withQueues state values) := by
  intro state
  simp only [decoderDownload, withQueues]
  split
  · rename_i ident node _
    by_cases removes : node.mode = .remove
    · simp only [if_pos removes, Option.map_none]
    · simp only [if_neg removes]
      cases download with
      | failed => rfl
      | fetched buffer =>
          dsimp only
          cases documentMessage parse print now node buffer with
          | none => rfl
          | some result => cases result <;> rfl
  · rfl

theorem decoderDownload_frames_dress (download : Download) (now : CString) :
    Frames (decoderDownload parse print download now)
      (fun state => dressed state scanner dbMode) := by
  intro state
  simp only [decoderDownload, dressed]
  split
  · rename_i ident node _
    by_cases removes : node.mode = .remove
    · simp only [if_pos removes, Option.map_none]
    · simp only [if_neg removes]
      cases download with
      | failed => rfl
      | fetched buffer =>
          dsimp only
          cases documentMessage parse print now node buffer with
          | none => rfl
          | some result => cases result <;> rfl
  · rfl

theorem storerReadEnds_frames :
    Frames storerReadEnds (fun state => withQueues state values) := by
  intro state
  cases state with
  | mk _ _ _ _ executionEnds decoder storer _ _ _ _ =>
      cases storer <;> cases executionEnds <;> rfl

theorem storerReadEnds_frames_dress :
    Frames storerReadEnds (fun state => dressed state scanner dbMode) := by
  intro state
  cases state with
  | mk _ _ _ _ executionEnds decoder storer _ _ _ _ =>
      cases storer <;> cases executionEnds <;> rfl

theorem storerSend_frames (delivered : Bool) :
    Frames (storerSend delivered) (fun state => withQueues state values) := by
  intro state
  simp only [storerSend, withQueues]
  split
  · cases delivered <;> rfl
  · rfl

theorem storerSend_frames_dress (delivered : Bool) :
    Frames (storerSend delivered)
      (fun state => dressed state scanner dbMode) := by
  intro state
  simp only [storerSend, dressed]
  split
  · cases delivered <;> rfl
  · rfl

/-- The reader with other queues. -/
def replaceQueues (reader : Reader) : Reader :=
  { reader with state := withQueues reader.state values }

theorem goes_replace {next : State → Option State}
    (frames : Frames next (fun state => withQueues state values))
    (reader : Reader) :
    (replaceQueues values reader).goes next =
      (reader.goes next).map (replaceQueues values) := by
  have framed :
      next (withQueues reader.state values) =
        (next reader.state).map fun state => withQueues state values :=
    frames reader.state
  simp only [Reader.goes, replaceQueues, framed, Option.map_map]
  rfl

theorem scans_replace {next : State → Option State}
    (frames : Frames next (fun state => withQueues state values))
    (reader : Reader) :
    (replaceQueues values reader).scans next =
      (reader.scans next).map (replaceQueues values) := by
  cases reader with
  | mk state offering =>
      cases offering with
      | none => exact goes_replace values frames ⟨state, none⟩
      | some node => rfl

theorem scan_replace (symbol : CString) (reader : Reader) :
    scan symbol (replaceQueues values reader) =
      (scan symbol reader).map (replaceQueues values) := by
  cases reader with
  | mk state offering =>
      cases state with
      | mk _ _ scanner _ _ _ _ _ _ _ _ =>
          cases offering <;> cases scanner <;> rfl

theorem receive_replace (msg : CString) (reader : Reader) :
    receive msg (replaceQueues values reader) =
      (receive msg reader).map (replaceQueues values) := by
  cases reader with
  | mk state offering =>
      cases state with
      | mk _ _ scanner dbMode _ _ _ _ _ _ _ =>
          cases offering <;> cases scanner <;>
            simp only [receive, replaceQueues, withQueues, Option.map_none]
          cases socketNode dbMode msg <;> rfl

theorem readLine_replace (reader : Reader) :
    readLine (replaceQueues values reader) =
      (readLine reader).map (replaceQueues values) := by
  cases reader with
  | mk state offering =>
      cases state with
      | mk _ _ scanner _ _ _ _ _ _ _ _ =>
          cases offering with
          | some node => rfl
          | none =>
              cases scanner with
              | file whole rest repeats =>
                  cases rest <;> cases repeats <;> rfl
              | camera => rfl
              | socket => rfl
              | finished => rfl
              | ended => rfl

theorem move_replace (reader : Reader) (event : Event) :
    move parse print (replaceQueues values reader) event =
      (move parse print reader event).map (replaceQueues values) := by
  cases event with
  | scan symbol => exact scan_replace values symbol reader
  | receive msg => exact receive_replace values msg reader
  | readLine => exact readLine_replace values reader
  | closeCamera => exact scans_replace values (closeCamera_frames values) reader
  | switchMode => exact goes_replace values (switchMode_frames values) reader
  | setExecutionEnds =>
      exact scans_replace values (setExecutionEnds_frames values) reader
  | decoderGet => rfl
  | decoderReadEnds =>
      exact goes_replace values (decoderReadEnds_frames values) reader
  | decoderFormat =>
      exact goes_replace values (decoderFormat_frames values) reader
  | decoderDownload download now =>
      exact
        goes_replace values
          (decoderDownload_frames parse print values download now) reader
  | decoderAdd => rfl
  | storerGet => rfl
  | storerReadEnds =>
      exact goes_replace values (storerReadEnds_frames values) reader
  | storerSend delivered =>
      exact goes_replace values (storerSend_frames values delivered) reader

theorem respond_replace (reader : Reader) (party : Party) (which : Which)
    (res : Res (Value which)) :
    respond (replaceQueues values reader) party which res =
      replaceQueues values (respond reader party which res) := by
  cases reader with
  | mk state offering =>
      cases state with
      | mk _ _ _ _ _ decoder _ _ _ _ _ =>
          cases party <;> cases which <;> cases res <;> try rfl
          · rename_i result
            cases offering with
            | none => rfl
            | some node =>
                simp only [respond, offered, replaceQueues, withQueues]
                split <;> rfl
          · rename_i node
            cases node <;> rfl
          · rename_i result
            cases decoder <;> try rfl
            simp only [respond, queued, replaceQueues, withQueues]
            split <;> rfl
          · rename_i data
            cases data <;> rfl

/-! ## A call stays the same until it returns -/

/-- Who has come to a queue operation stays there. -/
def Keeps (reader next : Reader) : Prop :=
  ∀ party call, request reader party = some call →
    request next party = some call

/-- A step of the scanner keeps the calls if it leaves these fields alone. -/
theorem keeps_of_scanner {reader next : Reader}
    (none_offered : reader.offering = none)
    (decoder : next.state.decoder = reader.state.decoder)
    (storer : next.state.storer = reader.state.storer) :
    Keeps reader next := by
  intro party call requested
  cases party with
  | scanner =>
      simp only [request, none_offered, Option.map_none] at requested
      cases requested
  | decoder =>
      simp only [request, decoder] at requested ⊢
      exact requested
  | storer =>
      simp only [request, storer] at requested ⊢
      exact requested

theorem keeps_of_decoder {reader next : Reader}
    (noRequest : request reader .decoder = none)
    (offering : next.offering = reader.offering)
    (accepted : next.state.accepted = reader.state.accepted)
    (storer : next.state.storer = reader.state.storer) :
    Keeps reader next := by
  intro party call requested
  cases party with
  | scanner =>
      simp only [request, offering, accepted] at requested ⊢
      exact requested
  | decoder =>
      rw [noRequest] at requested
      cases requested
  | storer =>
      simp only [request, storer] at requested ⊢
      exact requested

theorem keeps_of_storer {reader next : Reader}
    (noRequest : request reader .storer = none)
    (offering : next.offering = reader.offering)
    (accepted : next.state.accepted = reader.state.accepted)
    (decoder : next.state.decoder = reader.state.decoder) :
    Keeps reader next := by
  intro party call requested
  cases party with
  | scanner =>
      simp only [request, offering, accepted] at requested ⊢
      exact requested
  | decoder =>
      simp only [request, decoder] at requested ⊢
      exact requested
  | storer =>
      rw [noRequest] at requested
      cases requested

theorem goes_eq_some {reader after : Reader} {next : State → Option State}
    (moved : reader.goes next = some after) :
    ∃ state, next reader.state = some state ∧
      after = { reader with state } := by
  obtain ⟨state, stepped, same⟩ := Option.map_eq_some_iff.mp moved
  exact ⟨state, stepped, same.symm⟩

theorem scans_eq_some {reader after : Reader} {next : State → Option State}
    (moved : reader.scans next = some after) :
    reader.offering = none ∧ ∃ state, next reader.state = some state ∧
      after = { reader with state } := by
  simp only [Reader.scans] at moved
  split at moved
  · exact ⟨by assumption, goes_eq_some moved⟩
  · cases moved

theorem scan_keeps {reader next : Reader} {symbol : CString}
    (moved : scan symbol reader = some next) : Keeps reader next := by
  simp only [scan] at moved
  split at moved
  · rename_i free _
    cases moved
    exact keeps_of_scanner free rfl rfl
  · cases moved

theorem receive_keeps {reader next : Reader} {msg : CString}
    (moved : receive msg reader = some next) : Keeps reader next := by
  simp only [receive] at moved
  split at moved
  · rename_i free _
    split at moved
    · cases moved
      exact keeps_of_scanner free rfl rfl
    · cases moved
      exact keeps_of_scanner free rfl rfl
  · cases moved

theorem pipelineReadLine_keeps {state next : State}
    (noLine : ∀ whole line rest repeats,
      state.scanner ≠ .file whole (line :: rest) repeats)
    (stepped : Pipeline.readLine state = some next) :
    next.decoder = state.decoder ∧ next.storer = state.storer := by
  simp only [Pipeline.readLine] at stepped
  split at stepped
  · rename_i whole line rest repeats isFile
    exact absurd isFile (noLine whole line rest repeats)
  · cases stepped
    exact ⟨rfl, rfl⟩
  · cases stepped
    exact ⟨rfl, rfl⟩
  · cases stepped

theorem readLine_keeps {reader next : Reader}
    (moved : readLine reader = some next) : Keeps reader next := by
  simp only [readLine] at moved
  split at moved
  · rename_i free _
    cases moved
    exact keeps_of_scanner free rfl rfl
  · rename_i free noLine
    obtain ⟨_, state, stepped, rfl⟩ := scans_eq_some moved
    obtain ⟨decoder, storer⟩ := pipelineReadLine_keeps noLine stepped
    exact keeps_of_scanner free decoder storer
  · cases moved

theorem closeCamera_keeps {reader next : Reader}
    (moved : reader.scans closeCamera = some next) : Keeps reader next := by
  obtain ⟨free, state, stepped, rfl⟩ := scans_eq_some moved
  simp only [closeCamera] at stepped
  split at stepped
  · cases stepped
    exact keeps_of_scanner free rfl rfl
  · cases stepped

theorem setExecutionEnds_keeps {reader next : Reader}
    (moved : reader.scans setExecutionEnds = some next) :
    Keeps reader next := by
  obtain ⟨free, state, stepped, rfl⟩ := scans_eq_some moved
  simp only [setExecutionEnds] at stepped
  split at stepped
  · cases stepped
    exact keeps_of_scanner free rfl rfl
  · cases stepped

theorem switchMode_keeps {reader next : Reader}
    (moved : reader.goes switchMode = some next) : Keeps reader next := by
  obtain ⟨state, stepped, rfl⟩ := goes_eq_some moved
  simp only [switchMode] at stepped
  split at stepped
  · cases stepped
    intro party call requested
    cases party <;> exact requested
  · cases stepped

theorem decoderReadEnds_keeps {reader next : Reader}
    (moved : reader.goes decoderReadEnds = some next) :
    Keeps reader next := by
  obtain ⟨state, stepped, rfl⟩ := goes_eq_some moved
  simp only [decoderReadEnds] at stepped
  split at stepped
  · rename_i empty
    have noRequest : request reader .decoder = none := by
      simp only [request, empty]
    split at stepped
    · cases stepped
      exact keeps_of_decoder noRequest rfl rfl rfl
    · cases stepped
      exact keeps_of_decoder noRequest rfl rfl rfl
  · cases stepped

theorem decoderFormat_keeps {reader next : Reader}
    (moved : reader.goes decoderFormat = some next) : Keeps reader next := by
  obtain ⟨state, stepped, rfl⟩ := goes_eq_some moved
  simp only [decoderFormat] at stepped
  split at stepped
  · rename_i held
    have noRequest : request reader .decoder = none := by
      simp only [request, held]
    split at stepped
    · cases stepped
      exact keeps_of_decoder noRequest rfl rfl rfl
    · cases stepped
  · cases stepped

theorem decoderDownload_keeps {reader next : Reader} {download : Download}
    {now : CString}
    (moved :
      reader.goes (decoderDownload parse print download now) = some next) :
    Keeps reader next := by
  obtain ⟨state, stepped, rfl⟩ := goes_eq_some moved
  simp only [decoderDownload] at stepped
  split at stepped
  · rename_i held
    have noRequest : request reader .decoder = none := by
      simp only [request, held]
    split at stepped
    · cases stepped
    · split at stepped
      · cases stepped
        exact keeps_of_decoder noRequest rfl rfl rfl
      · split at stepped
        · cases stepped
        · cases stepped
          exact keeps_of_decoder noRequest rfl rfl rfl
        · cases stepped
          exact keeps_of_decoder noRequest rfl rfl rfl
  · cases stepped

theorem storerReadEnds_keeps {reader next : Reader}
    (moved : reader.goes storerReadEnds = some next) : Keeps reader next := by
  obtain ⟨state, stepped, rfl⟩ := goes_eq_some moved
  simp only [storerReadEnds] at stepped
  split at stepped
  · rename_i empty
    have noRequest : request reader .storer = none := by
      simp only [request, empty]
    split at stepped
    · cases stepped
      exact keeps_of_storer noRequest rfl rfl rfl
    · cases stepped
      exact keeps_of_storer noRequest rfl rfl rfl
  · cases stepped

theorem storerSend_keeps {reader next : Reader} {delivered : Bool}
    (moved : reader.goes (storerSend delivered) = some next) :
    Keeps reader next := by
  obtain ⟨state, stepped, rfl⟩ := goes_eq_some moved
  simp only [storerSend] at stepped
  split at stepped
  · rename_i held
    have noRequest : request reader .storer = none := by
      simp only [request, held]
    split at stepped
    · cases stepped
      exact keeps_of_storer noRequest rfl rfl rfl
    · cases stepped
      exact keeps_of_storer noRequest rfl rfl rfl
  · cases stepped

theorem move_keeps {reader next : Reader} {event : Event}
    (moved : move parse print reader event = some next) :
    Keeps reader next := by
  cases event with
  | scan symbol => exact scan_keeps moved
  | receive msg => exact receive_keeps moved
  | readLine => exact readLine_keeps moved
  | closeCamera => exact closeCamera_keeps moved
  | switchMode => exact switchMode_keeps moved
  | setExecutionEnds => exact setExecutionEnds_keeps moved
  | decoderGet => cases moved
  | decoderReadEnds => exact decoderReadEnds_keeps moved
  | decoderFormat => exact decoderFormat_keeps moved
  | decoderDownload download now =>
      exact decoderDownload_keeps parse print moved
  | decoderAdd => cases moved
  | storerGet => cases moved
  | storerReadEnds => exact storerReadEnds_keeps moved
  | storerSend delivered => exact storerSend_keeps moved

theorem offered_decoder (reader : Reader) (result : Int) :
    (offered reader result).state.decoder = reader.state.decoder ∧
      (offered reader result).state.storer = reader.state.storer := by
  simp only [offered]
  split
  · dsimp only
    split <;> exact ⟨rfl, rfl⟩
  · exact ⟨rfl, rfl⟩

theorem queued_keeps (reader : Reader) (result : Int) :
    (queued reader result).offering = reader.offering ∧
      (queued reader result).state.accepted = reader.state.accepted ∧
        (queued reader result).state.storer = reader.state.storer := by
  simp only [queued]
  split
  · dsimp only
    split <;> exact ⟨rfl, rfl, rfl⟩
  · exact ⟨rfl, rfl, rfl⟩

/-- A call that returns leaves the calls of the others alone. -/
theorem request_respond (reader : Reader) (party other : Party)
    (which : Which) (res : Res (Value which)) (different : party ≠ other) :
    request (respond reader party which res) other =
      request reader other := by
  cases party with
  | scanner =>
      have keeps : ∀ result,
          request (offered reader result) other = request reader other := by
        intro result
        obtain ⟨decoder, storer⟩ := offered_decoder reader result
        cases other with
        | scanner => exact absurd rfl different
        | decoder => simp only [request, decoder]
        | storer => simp only [request, storer]
      cases which <;> cases res <;> first | rfl | exact keeps _
  | decoder =>
      have fetchKeeps : ∀ node,
          request (fetched reader node) other = request reader other := by
        intro node
        cases other with
        | decoder => exact absurd rfl different
        | scanner => cases node <;> rfl
        | storer => cases node <;> rfl
      have queueKeeps : ∀ result,
          request (queued reader result) other = request reader other := by
        intro result
        obtain ⟨offering, accepted, storer⟩ := queued_keeps reader result
        cases other with
        | decoder => exact absurd rfl different
        | scanner => simp only [request, offering, accepted]
        | storer => simp only [request, storer]
      cases which <;> cases res <;>
        first | rfl | exact fetchKeeps _ | exact queueKeeps _
  | storer =>
      have keeps : ∀ data,
          request (taken reader data) other = request reader other := by
        intro data
        cases other with
        | storer => exact absurd rfl different
        | scanner => cases data <;> rfl
        | decoder => cases data <;> rfl
      cases which <;> cases res <;> first | rfl | exact keeps _

/-- The three threads as clients of the two queues. -/
def readerClients :
    Clients Reader Event Party Which (fun which => Op (Value which))
      (fun which => Res (Value which)) (fun which => Queue (Value which)) where
  objects := queues
  replace reader values := replaceQueues values reader
  move := move parse print
  request := request
  respond := respond
  objects_replace := by
    intro reader values
    funext which
    cases which <;> rfl
  replace_objects _ := rfl
  replace_replace _ _ _ := rfl
  move_replace reader values event :=
    move_replace parse print values reader event
  request_replace := by
    intro reader values party
    cases party <;> rfl
  respond_replace reader values party which res :=
    respond_replace values reader party which res
  request_move := by
    intro reader event next party call moved
    exact move_keeps parse print moved party call
  request_respond := by
    intro reader party other which op res call different _ requested
    rw [request_respond reader party other which res different]
    exact requested

/-- The operations of the queues, each as one step. -/
def readerSpec (which : Which) :
    Op (Value which) → Queue (Value which) →
      Res (Value which) × Queue (Value which) :=
  queueSpec

/-- The code of the operations, by single accesses. -/
def readerCode (which : Which) :
    Locking.Code (Op (Value which)) (Res (Value which))
      (Queue (Value which)) (Point (Value which)) :=
  queueCode

/-- The reader behind the creation of its threads. -/
def startReader (idSize prSize : Int) (scanner : Scanner) : Reader where
  state := Pipeline.start idSize prSize scanner
  offering := none

/-- The threads with their locks. -/
abbrev Threads : Type :=
  LockedCalls.World Reader Party (fun which => Op (Value which))
    (fun which => Point (Value which))

/-- A step of a thread, or of the signal handler. -/
def lockedReaderStep :
    Threads → LockedEvent Event Party → Option Threads :=
  lockedStep (readerClients parse print) readerCode

/-! ## The reader with atomic queue operations -/

/--
The state of the pipeline that stands for the reader.  The pipeline has not
scanned yet what the scanner is offering, and handles SIGTSTP after it.
-/
inductive StandsFor : State → Reader → Prop where
  | between (state : State) : StandsFor state ⟨state, none⟩
  | offering (state : State) (node : ProductNode) (scanner : Scanner)
      (mode : DbMode) (event : Event)
      (scanned : ∀ before, before.scanner = scanner →
        before.dbMode = mode →
          step parse print before event =
            some (offer node { before with scanner := state.scanner }))
      (switched : mode = state.dbMode ∨
        state.scanner = .camera ∧ keyHandler mode = state.dbMode) :
      StandsFor (dressed state scanner mode) ⟨state, some node⟩

/-- The pipeline does what the reader has done. -/
def Simulates (before : State) (next : Reader) : Prop :=
  ∃ events after, Runs.run (step parse print) before events = some after ∧
    StandsFor parse print after next

variable {parse print}

theorem simulates_of_step {before after : State} {next : Reader} {event : Event}
    (stepped : step parse print before event = some after)
    (stands : StandsFor parse print after next) :
    Simulates parse print before next :=
  ⟨[event], after, (Runs.run_cons _ _ _ _ _).mpr ⟨after, stepped, rfl⟩, stands⟩

theorem simulates_of_stands {before : State} {next : Reader}
    (stands : StandsFor parse print before next) :
    Simulates parse print before next :=
  ⟨[], before, rfl, stands⟩

/-- A step that is taken whatever the scanner is at. -/
theorem simulates_goes {before : State} {reader after : Reader}
    {next : State → Option State} {event : Event}
    (same : ∀ state, step parse print state event = next state)
    (frames : ∀ scanner mode,
      Frames next (fun state => dressed state scanner mode))
    (scannerStays : ∀ state moved, next state = some moved →
      moved.scanner = state.scanner ∧ moved.dbMode = state.dbMode)
    (stands : StandsFor parse print before reader)
    (moved : reader.goes next = some after) :
    Simulates parse print before after := by
  obtain ⟨state, stepped, rfl⟩ := goes_eq_some moved
  cases stands with
  | between =>
      exact simulates_of_step ((same before).trans stepped) (.between state)
  | offering old node scanner mode scan scanned switched =>
      obtain ⟨sameScanner, sameMode⟩ := scannerStays old state stepped
      have taken :
          step parse print (dressed old scanner mode) event =
            some (dressed state scanner mode) := by
        rw [same, frames scanner mode old, stepped, Option.map_some]
      refine
        simulates_of_step taken (.offering state node scanner mode scan ?_ ?_)
      · rw [sameScanner]
        exact scanned
      · rw [sameScanner, sameMode]
        exact switched

theorem simulates_scans {before : State} {reader after : Reader}
    {next : State → Option State} {event : Event}
    (same : ∀ state, step parse print state event = next state)
    (stands : StandsFor parse print before reader)
    (moved : reader.scans next = some after) :
    Simulates parse print before after := by
  obtain ⟨free, state, stepped, rfl⟩ := scans_eq_some moved
  cases stands with
  | between =>
      exact simulates_of_step ((same before).trans stepped) (.between state)
  | offering => cases free

theorem simulates_scan {before : State} {reader after : Reader}
    {symbol : CString} (stands : StandsFor parse print before reader)
    (moved : scan symbol reader = some after) :
    Simulates parse print before after := by
  simp only [scan] at moved
  split at moved
  · rename_i free isCamera
    cases moved
    cases stands with
    | offering => cases free
    | between =>
        refine
          simulates_of_stands
            (.offering before _ before.scanner before.dbMode (.scan symbol)
              ?_ (.inl rfl))
        intro state sameScanner sameMode
        have camera : state.scanner = .camera := sameScanner.trans isCamera
        rw [← sameScanner, ← sameMode]
        simp only [step, Pipeline.scan, camera]
        rw [← camera]
  · cases moved

theorem simulates_receive {before : State} {reader after : Reader}
    {msg : CString} (stands : StandsFor parse print before reader)
    (moved : receive msg reader = some after) :
    Simulates parse print before after := by
  simp only [receive] at moved
  split at moved
  · rename_i free isSocket
    cases stands with
    | offering => cases free
    | between =>
        have socket : before.scanner = .socket := isSocket
        split at moved
        · rename_i node made
          cases moved
          refine
            simulates_of_stands
              (.offering before node before.scanner before.dbMode
                (.receive msg) ?_ (.inl rfl))
          intro state sameScanner sameMode
          have alsoSocket : state.scanner = .socket :=
            sameScanner.trans socket
          have alsoMade : socketNode state.dbMode msg = some node := by
            rw [sameMode]
            exact made
          rw [← sameScanner]
          simp only [step, Pipeline.receive, alsoSocket, alsoMade]
          rw [← alsoSocket]
        · rename_i notMade
          cases moved
          have stepped :
              step parse print before (.receive msg) =
                some (before.logs (.socketFormatError msg)) := by
            have refused : socketNode before.dbMode msg = none := notMade
            simp only [step, Pipeline.receive, socket, refused]
          exact simulates_of_step stepped (.between _)
  · cases moved

theorem simulates_readLine {before : State} {reader after : Reader}
    (stands : StandsFor parse print before reader)
    (moved : readLine reader = some after) :
    Simulates parse print before after := by
  simp only [readLine] at moved
  split at moved
  · rename_i whole line rest repeats free isFile
    cases moved
    cases stands with
    | offering => cases free
    | between =>
        have file : before.scanner = .file whole (line :: rest) repeats :=
          isFile
        change
          Simulates parse print before
            ⟨{ before with scanner := .file whole rest repeats },
              testNode before.dbMode line⟩
        cases made : testNode before.dbMode line with
        | none =>
            have stepped :
                step parse print before .readLine =
                  some { before with
                    scanner := .file whole rest repeats } := by
              simp only [step, Pipeline.readLine, file, made]
            exact simulates_of_step stepped (.between _)
        | some node =>
            refine
              simulates_of_stands
                (.offering { before with scanner := .file whole rest repeats }
                  node before.scanner before.dbMode .readLine ?_ (.inl rfl))
            intro state sameScanner sameMode
            have alsoFile :
                state.scanner = .file whole (line :: rest) repeats :=
              sameScanner.trans file
            have alsoMade : testNode state.dbMode line = some node := by
              rw [sameMode]
              exact made
            simp only [step, Pipeline.readLine, alsoFile, alsoMade]
  · have same : ∀ state,
        step parse print state .readLine = Pipeline.readLine state :=
      fun _ => rfl
    exact simulates_scans same stands moved
  · cases moved

theorem keyHandler_twice (mode : DbMode) :
    keyHandler (keyHandler mode) = mode := by
  cases mode <;> rfl

theorem simulates_switchMode {before : State} {reader after : Reader}
    (stands : StandsFor parse print before reader)
    (moved : reader.goes switchMode = some after) :
    Simulates parse print before after := by
  obtain ⟨state, stepped, rfl⟩ := goes_eq_some moved
  cases stands with
  | between =>
      have taken : step parse print before .switchMode = some state := stepped
      exact simulates_of_step taken (.between state)
  | offering old node scanner mode scan scanned switched =>
      simp only [switchMode] at stepped
      split at stepped
      · rename_i camera
        cases stepped
        refine
          simulates_of_stands
            (.offering { old with dbMode := keyHandler old.dbMode } node
              scanner mode scan scanned ?_)
        rcases switched with same | ⟨_, switched⟩
        · exact .inr ⟨camera, congrArg keyHandler same⟩
        · refine .inl ?_
          change mode = keyHandler old.dbMode
          rw [← switched, keyHandler_twice]
      · cases stepped

theorem decoderReadEnds_scanner {state next : State}
    (stepped : decoderReadEnds state = some next) :
    next.scanner = state.scanner ∧ next.dbMode = state.dbMode := by
  simp only [decoderReadEnds] at stepped
  split at stepped
  · split at stepped <;> cases stepped <;> exact ⟨rfl, rfl⟩
  · cases stepped

theorem decoderFormat_scanner {state next : State}
    (stepped : decoderFormat state = some next) :
    next.scanner = state.scanner ∧ next.dbMode = state.dbMode := by
  simp only [decoderFormat] at stepped
  split at stepped
  · split at stepped
    · cases stepped
      exact ⟨rfl, rfl⟩
    · cases stepped
  · cases stepped

theorem decoderDownload_scanner {state next : State} {download : Download}
    {now : CString}
    (stepped : decoderDownload parse print download now state = some next) :
    next.scanner = state.scanner ∧ next.dbMode = state.dbMode := by
  simp only [decoderDownload] at stepped
  split at stepped
  · split at stepped
    · cases stepped
    · split at stepped
      · cases stepped
        exact ⟨rfl, rfl⟩
      · split at stepped <;> cases stepped <;> exact ⟨rfl, rfl⟩
  · cases stepped

theorem storerReadEnds_scanner {state next : State}
    (stepped : storerReadEnds state = some next) :
    next.scanner = state.scanner ∧ next.dbMode = state.dbMode := by
  simp only [storerReadEnds] at stepped
  split at stepped
  · split at stepped <;> cases stepped <;> exact ⟨rfl, rfl⟩
  · cases stepped

theorem storerSend_scanner {state next : State} {delivered : Bool}
    (stepped : storerSend delivered state = some next) :
    next.scanner = state.scanner ∧ next.dbMode = state.dbMode := by
  simp only [storerSend] at stepped
  split at stepped
  · split at stepped <;> cases stepped <;> exact ⟨rfl, rfl⟩
  · cases stepped

/-- What the threads do between their queue operations, the pipeline does. -/
theorem simulates_move {before : State} {reader after : Reader}
    {event : Event} (stands : StandsFor parse print before reader)
    (moved : move parse print reader event = some after) :
    Simulates parse print before after := by
  cases event with
  | scan symbol => exact simulates_scan stands moved
  | receive msg => exact simulates_receive stands moved
  | readLine => exact simulates_readLine stands moved
  | closeCamera =>
      have same : ∀ state,
          step parse print state .closeCamera = closeCamera state :=
        fun _ => rfl
      exact simulates_scans same stands moved
  | switchMode => exact simulates_switchMode stands moved
  | setExecutionEnds =>
      have same : ∀ state,
          step parse print state .setExecutionEnds = setExecutionEnds state :=
        fun _ => rfl
      exact simulates_scans same stands moved
  | decoderGet => cases moved
  | decoderReadEnds =>
      have same : ∀ state,
          step parse print state .decoderReadEnds = decoderReadEnds state :=
        fun _ => rfl
      exact
        simulates_goes same decoderReadEnds_frames_dress
          (fun _ _ => decoderReadEnds_scanner) stands moved
  | decoderFormat =>
      have same : ∀ state,
          step parse print state .decoderFormat = decoderFormat state :=
        fun _ => rfl
      exact
        simulates_goes same decoderFormat_frames_dress
          (fun _ _ => decoderFormat_scanner) stands moved
  | decoderDownload download now =>
      have same : ∀ state,
          step parse print state (.decoderDownload download now) =
            decoderDownload parse print download now state :=
        fun _ => rfl
      exact
        simulates_goes same
          (fun scanner mode =>
            decoderDownload_frames_dress parse print scanner mode download now)
          (fun _ _ => decoderDownload_scanner) stands moved
  | decoderAdd => cases moved
  | storerGet => cases moved
  | storerReadEnds =>
      have same : ∀ state,
          step parse print state .storerReadEnds = storerReadEnds state :=
        fun _ => rfl
      exact
        simulates_goes same storerReadEnds_frames_dress
          (fun _ _ => storerReadEnds_scanner) stands moved
  | storerSend delivered =>
      have same : ∀ state,
          step parse print state (.storerSend delivered) =
            storerSend delivered state :=
        fun _ => rfl
      exact
        simulates_goes same
          (fun scanner mode => storerSend_frames_dress scanner mode delivered)
          (fun _ _ => storerSend_scanner) stands moved

/-! ### A queue operation as one step -/

theorem decoderGet_frames_dress (scanner : Scanner) (mode : DbMode) :
    Frames decoderGet (fun state => dressed state scanner mode) := by
  intro state
  simp only [decoderGet, dressed]
  split
  · cases sfQueueGet state.idq with
    | mk value idq => cases value <;> rfl
  · rfl

theorem decoderAdd_frames_dress (scanner : Scanner) (mode : DbMode) :
    Frames decoderAdd (fun state => dressed state scanner mode) := by
  intro state
  simp only [decoderAdd, dressed]
  split
  · split
    · rename_i stored
      exact if_pos stored
    · rename_i refused
      exact if_neg refused
  · rfl

theorem storerGet_frames_dress (scanner : Scanner) (mode : DbMode) :
    Frames storerGet (fun state => dressed state scanner mode) := by
  intro state
  simp only [storerGet, dressed]
  split
  · cases sfQueueGet state.prq with
    | mk value prq => cases value <;> rfl
  · rfl

theorem offer_dressed (node : ProductNode) (state : State) (scanner : Scanner)
    (mode : DbMode) :
    offer node (dressed state scanner mode) =
      dressed (offer node state) scanner mode := by
  simp only [offer, dressed]
  split
  · rename_i stored
    exact if_pos stored
  · rename_i refused
    exact if_neg refused

theorem offer_scanner (node : ProductNode) (state : State) :
    (offer node state).scanner = state.scanner ∧
      (offer node state).dbMode = state.dbMode := by
  simp only [offer]
  split <;> exact ⟨rfl, rfl⟩

theorem decoderGet_scanner {state next : State}
    (stepped : decoderGet state = some next) :
    next.scanner = state.scanner ∧ next.dbMode = state.dbMode := by
  simp only [decoderGet] at stepped
  split at stepped
  · split at stepped <;> cases stepped <;> exact ⟨rfl, rfl⟩
  · cases stepped

theorem decoderAdd_scanner {state next : State}
    (stepped : decoderAdd state = some next) :
    next.scanner = state.scanner ∧ next.dbMode = state.dbMode := by
  simp only [decoderAdd] at stepped
  split at stepped
  · split at stepped <;> cases stepped <;> exact ⟨rfl, rfl⟩
  · cases stepped

theorem storerGet_scanner {state next : State}
    (stepped : storerGet state = some next) :
    next.scanner = state.scanner ∧ next.dbMode = state.dbMode := by
  simp only [storerGet] at stepped
  split at stepped
  · split at stepped <;> cases stepped <;> exact ⟨rfl, rfl⟩
  · cases stepped

/-- The reader after the operation that the party has come to. -/
def performed (reader : Reader) (party : Party)
    (call : Sigma fun which => Op (Value which)) : Reader :=
  respond
    (replaceQueues
      (Function.update (queues reader) call.1
        (readerSpec call.1 call.2 (queues reader call.1)).2)
      reader)
    party call.1 (readerSpec call.1 call.2 (queues reader call.1)).1

theorem performed_decoderGet {reader : Reader}
    (fetching : reader.state.decoder = .fetch) :
    reader.goes decoderGet = some (performed reader .decoder ⟨.idq, .get⟩) := by
  simp only [Reader.goes, decoderGet, fetching]
  change Option.map _ _ =
    some (fetched
      (replaceQueues
        (Function.update (queues reader) .idq (sfQueueGet reader.state.idq).2)
        reader)
      (sfQueueGet reader.state.idq).1)
  cases sfQueueGet reader.state.idq with
  | mk value idq => cases value <;> rfl

theorem performed_storerGet {reader : Reader}
    (fetching : reader.state.storer = .fetch) :
    reader.goes storerGet = some (performed reader .storer ⟨.prq, .get⟩) := by
  simp only [Reader.goes, storerGet, fetching]
  change Option.map _ _ =
    some (taken
      (replaceQueues
        (Function.update (queues reader) .prq (sfQueueGet reader.state.prq).2)
        reader)
      (sfQueueGet reader.state.prq).1)
  cases sfQueueGet reader.state.prq with
  | mk value prq => cases value <;> rfl

theorem performed_decoderAdd {reader : Reader} {message : Tagged CString}
    {mode : DbMode} (queueing : reader.state.decoder = .queueing message mode) :
    reader.goes decoderAdd =
      some (performed reader .decoder ⟨.prq, .add (some message)⟩) := by
  simp only [Reader.goes, decoderAdd, queueing]
  change Option.map _ _ =
    some (queued
      (replaceQueues
        (Function.update (queues reader) .prq
          (sfQueueAdd reader.state.prq (some message)).2)
        reader)
      (sfQueueAdd reader.state.prq (some message)).1)
  simp only [queued, replaceQueues, withQueues, queueing]
  cases sfQueueAdd reader.state.prq (some message) with
  | mk result prq =>
      by_cases stored : result = 0
      · simp only [if_pos stored]
        rfl
      · simp only [if_neg stored]
        rfl

theorem performed_offer {reader : Reader} {node : ProductNode}
    (offering : reader.offering = some node) :
    performed reader .scanner
        ⟨.idq, .add (some (⟨reader.state.accepted.length, node⟩ :
          Tagged ProductNode))⟩ =
      ⟨offer node reader.state, none⟩ := by
  change
    offered
      (replaceQueues
        (Function.update (queues reader) .idq
          (sfQueueAdd reader.state.idq
            (some ⟨reader.state.accepted.length, node⟩)).2)
        reader)
      (sfQueueAdd reader.state.idq
        (some ⟨reader.state.accepted.length, node⟩)).1 = _
  simp only [offered, replaceQueues, withQueues, offering, offer]
  cases sfQueueAdd reader.state.idq
      (some ⟨reader.state.accepted.length, node⟩) with
  | mk result idq => rfl

/-- The scanner's addition is the scan of the pipeline. -/
theorem simulates_offer {before state : State} {node : ProductNode}
    (stands : StandsFor parse print before ⟨state, some node⟩) :
    Simulates parse print before ⟨offer node state, none⟩ := by
  cases stands with
  | offering _ _ scanner mode scan scanned switched =>
      have taken := scanned (dressed state scanner mode) rfl rfl
      have unscanned :
          { dressed state scanner mode with scanner := state.scanner } =
            dressed state state.scanner mode := rfl
      rw [unscanned, offer_dressed] at taken
      obtain ⟨sameScanner, sameMode⟩ := offer_scanner node state
      rcases switched with same | ⟨camera, switched⟩
      · refine simulates_of_step taken ?_
        rw [same, ← sameScanner, ← sameMode]
        exact .between (offer node state)
      · have switches :
            step parse print (dressed (offer node state) state.scanner mode)
                .switchMode =
              some (offer node state) := by
          simp only [step, switchMode, dressed, camera, switched]
          rw [← sameMode, ← camera, ← sameScanner]
        exact
          ⟨[scan, .switchMode], offer node state,
            (Runs.run_cons _ _ _ _ _).mpr
              ⟨_, taken, (Runs.run_cons _ _ _ _ _).mpr ⟨_, switches, rfl⟩⟩,
            .between (offer node state)⟩

/-- A queue operation, as one step, is a step of the pipeline. -/
theorem simulates_perform {before : State} {reader after : Reader}
    {party : Party} (stands : StandsFor parse print before reader)
    (stepped :
      atomicStep (readerClients parse print) readerSpec reader
        (.perform party) = some after) :
    Simulates parse print before after := by
  obtain ⟨call, requested, rfl⟩ := Option.map_eq_some_iff.mp stepped
  change request reader party = some call at requested
  change Simulates parse print before (performed reader party call)
  cases party with
  | scanner =>
      simp only [request] at requested
      cases offering : reader.offering with
      | none =>
          rw [offering] at requested
          cases requested
      | some node =>
          rw [offering, Option.map_some] at requested
          obtain rfl := Option.some.inj requested
          rw [performed_offer offering]
          refine simulates_offer ?_
          rw [← offering]
          exact stands
  | decoder =>
      simp only [request] at requested
      split at requested
      · rename_i fetching
        obtain rfl := Option.some.inj requested
        have same : ∀ state,
            step parse print state .decoderGet = decoderGet state :=
          fun _ => rfl
        exact
          simulates_goes same decoderGet_frames_dress
            (fun _ _ => decoderGet_scanner) stands
            (performed_decoderGet fetching)
      · rename_i message mode queueing
        obtain rfl := Option.some.inj requested
        have same : ∀ state,
            step parse print state .decoderAdd = decoderAdd state :=
          fun _ => rfl
        exact
          simulates_goes same decoderAdd_frames_dress
            (fun _ _ => decoderAdd_scanner) stands
            (performed_decoderAdd queueing)
      · cases requested
  | storer =>
      simp only [request] at requested
      split at requested
      · rename_i fetching
        obtain rfl := Option.some.inj requested
        have same : ∀ state,
            step parse print state .storerGet = storerGet state :=
          fun _ => rfl
        exact
          simulates_goes same storerGet_frames_dress
            (fun _ _ => storerGet_scanner) stands
            (performed_storerGet fetching)
      · cases requested

theorem Simulates.extend {before : State} {reader after : Reader}
    (simulates : Simulates parse print before reader)
    (next : ∀ state, StandsFor parse print state reader →
      Simulates parse print state after) :
    Simulates parse print before after := by
  obtain ⟨events, between, ran, stands⟩ := simulates
  obtain ⟨later, last, continued, lastStands⟩ := next between stands
  exact ⟨events ++ later, last, Runs.run_append ran continued, lastStands⟩

/-- A run with atomic queue operations is a run of the pipeline. -/
theorem simulates_run {initial : State} {reader : Reader}
    {events : List (AtomicEvent Event Party)}
    (reached :
      Runs.run (atomicStep (readerClients parse print) readerSpec)
        ⟨initial, none⟩ events = some reader) :
    Simulates parse print initial reader := by
  refine
    Runs.run_invariant (Simulates parse print initial) ?_
      (simulates_of_stands (.between initial)) reached
  intro reader event next simulates stepped
  refine simulates.extend ?_
  intro state stands
  cases event with
  | move event => exact simulates_move stands stepped
  | perform party => exact simulates_perform stands stepped

/-! ## The reader with its locks -/

/--
The threads and the pipeline agree, on a queue while no thread is inside it,
and on the scanner while it offers nothing.
-/
structure Agrees (world : Threads) (state : State) : Prop where
  decoder : state.decoder = world.state.state.decoder
  storer : state.storer = world.state.state.storer
  executionEnds : state.executionEnds = world.state.state.executionEnds
  log : state.log = world.state.state.log
  accepted : state.accepted = world.state.state.accepted
  sent : state.sent = world.state.state.sent
  discarded : state.discarded = world.state.state.discarded
  idq : world.holder .idq = none → state.idq = world.state.state.idq
  prq : world.holder .prq = none → state.prq = world.state.state.prq
  scanner :
    world.state.offering = none →
      state.scanner = world.state.state.scanner ∧
        state.dbMode = world.state.state.dbMode

theorem StandsFor.agrees {state : State} {world : Threads}
    {before : (which : Which) → Queue (Value which)}
    (settled : ∀ which, world.holder which = none →
      queues world.state which = before which)
    (stands :
      StandsFor parse print state (replaceQueues before world.state)) :
    Agrees world state := by
  have idqSettled := settled .idq
  have prqSettled := settled .prq
  cases world with
  | mk reader holder phase =>
      cases reader with
      | mk current offering =>
          generalize whole : replaceQueues before ⟨current, offering⟩ = other
            at stands
          cases stands with
          | between =>
              cases whole
              exact
                { decoder := rfl
                  storer := rfl
                  executionEnds := rfl
                  log := rfl
                  accepted := rfl
                  sent := rfl
                  discarded := rfl
                  idq := fun free => (idqSettled free).symm
                  prq := fun free => (prqSettled free).symm
                  scanner := fun _ => ⟨rfl, rfl⟩ }
          | offering old node scanner mode scan scanned switched =>
              cases whole
              exact
                { decoder := rfl
                  storer := rfl
                  executionEnds := rfl
                  log := rfl
                  accepted := rfl
                  sent := rfl
                  discarded := rfl
                  idq := fun free => (idqSettled free).symm
                  prq := fun free => (prqSettled free).symm
                  scanner := by
                    intro impossible
                    cases impossible }

/-- The scanner has to wait while the decoder is inside the queue. -/
def contention : List (LockedEvent Event Party) :=
  [.move (.scan (.lit "8480017439482")), .call .decoder, .acquire .decoder,
    .call .scanner, .access .decoder, .move .switchMode, .access .decoder,
    .access .decoder, .release .decoder, .acquire .scanner,
    .access .scanner, .move .decoderReadEnds]

/-- The threads after that contention. -/
def contended : Threads :=
  (Runs.run
      (lockedReaderStep (Json.parse Json.standardRaw) Json.printUnformatted)
      (LockedCalls.start (startReader 5 5 .camera)) contention).get
    (by decide)

theorem contended_reached :
    Runs.run
        (lockedReaderStep (Json.parse Json.standardRaw) Json.printUnformatted)
        (LockedCalls.start (startReader 5 5 .camera)) contention =
      some contended :=
  (Option.some_get _).symm

/--
Every interleaving of the single accesses of the three threads, of SIGTSTP and
of everything else that the threads do is a run of the pipeline, whose queue
operations are atomic.
-/
theorem locked_reader_refines (idSize prSize : Int) (scanner : Scanner)
    (events : List (LockedEvent Event Party)) (world : Threads)
    (reached :
      Runs.run (lockedReaderStep parse print)
        (LockedCalls.start (startReader idSize prSize scanner)) events =
          some world) :
    ∃ steps state,
      Runs.run (step parse print) (Pipeline.start idSize prSize scanner)
          steps = some state ∧
        Agrees world state := by
  have implements :
      ∀ which, Locking.Implements (readerCode which) (readerSpec which) :=
    fun _ => queueCode_implements
  obtain ⟨upper, before, ran, follows⟩ := locked_refines implements reached
  obtain ⟨steps, state, done, stands⟩ := simulates_run ran
  exact ⟨steps, state, done, stands.agrees follows.settled⟩

theorem locked_reader_refines_contended :
    ∃ steps state,
      Runs.run (step (Json.parse Json.standardRaw) Json.printUnformatted)
          (Pipeline.start 5 5 .camera) steps = some state ∧
        Agrees contended state :=
  locked_reader_refines 5 5 .camera contention contended contended_reached

variable (parse print) in
/-- What can be said of the nodes while threads are inside the queues. -/
structure NeverTwice (state : State) : Prop where
  once : (state.sent.map Tagged.ident ++ state.discarded).Nodup
  accepted :
    ∀ ident ∈ state.sent.map Tagged.ident ++ state.discarded,
      ident < state.accepted.length
  genuine :
    ∀ data ∈ state.sent, IsGenuine parse print state.accepted data
  reported : LossesReported state

theorem neverTwice_of_invariant {state : State}
    (invariant : Invariant parse print state) :
    NeverTwice parse print state where
  once := by
    rw [List.nodup_iff_count_le_one]
    intro ident
    have total := invariant.counted ident
    rw [occurrences] at total
    have atMost : (if ident < state.accepted.length then 1 else 0) ≤ 1 := by
      split <;> simp
    rw [List.count_append]
    change
      (occupants state .sent).count ident +
        (occupants state .discarded).count ident ≤ 1
    omega
  accepted := by
    intro ident member
    by_contra beyond
    have total := invariant.counted ident
    rw [if_neg beyond, occurrences] at total
    have occurs := List.count_pos_iff.mpr member
    rw [List.count_append] at occurs
    change
      0 < (occupants state .sent).count ident +
        (occupants state .discarded).count ident at occurs
    omega
  genuine := by
    intro data member
    exact
      invariant.genuine.messages data (List.mem_append_right _ member)
  reported := invariant.reported

/--
In every interleaving of the threads of the reader, no accepted node is sent
twice or both sent and given up, each message sent is that of its node, what
was lost is in the log, and whenever both locks are free each accepted node is
in exactly one place.
-/
theorem locked_reader_conserves {idSize prSize : Int}
    (idLeast : minQueueSize ≤ idSize) (idMost : idSize ≤ maxQueueSize)
    (prLeast : minQueueSize ≤ prSize) (prMost : prSize ≤ maxQueueSize)
    (scanner : Scanner) (events : List (LockedEvent Event Party))
    (world : Threads)
    (reached :
      Runs.run (lockedReaderStep parse print)
        (LockedCalls.start (startReader idSize prSize scanner)) events =
          some world) :
    NeverTwice parse print world.state.state ∧
      ((∀ which, world.holder which = none) →
        Conserved parse print world.state.state) := by
  obtain ⟨steps, state, ran, agrees⟩ :=
    locked_reader_refines idSize prSize scanner events world reached
  have invariant : Invariant parse print state :=
    Runs.run_invariant (Invariant parse print)
      (fun _ _ _ before stepped => invariant_step before stepped)
      (invariant_start idLeast idMost prLeast prMost scanner) ran
  have never := neverTwice_of_invariant invariant
  refine ⟨?_, ?_⟩
  · exact
      { once := by
          rw [← agrees.sent, ← agrees.discarded]
          exact never.once
        accepted := by
          rw [← agrees.sent, ← agrees.discarded, ← agrees.accepted]
          exact never.accepted
        genuine := by
          rw [← agrees.sent, ← agrees.accepted]
          exact never.genuine
        reported := by
          unfold LossesReported
          rw [← agrees.discarded, ← agrees.log]
          exact never.reported }
  · intro free
    have same :
        world.state.state =
          dressed state world.state.state.scanner
            world.state.state.dbMode := by
      simp only [dressed, agrees.decoder, agrees.storer, agrees.log,
        agrees.executionEnds, agrees.accepted, agrees.sent, agrees.discarded,
        agrees.idq (free .idq), agrees.prq (free .prq)]
    rw [same]
    exact
      ⟨fun _ accepted => placed_of_countedOnce invariant.counted accepted,
        invariant.reported,
        ⟨invariant.genuine.nodes, invariant.genuine.messages⟩⟩

theorem locked_reader_conserves_contended :
    NeverTwice (Json.parse Json.standardRaw) Json.printUnformatted
        contended.state.state ∧
      ((∀ which, contended.holder which = none) →
        Conserved (Json.parse Json.standardRaw) Json.printUnformatted
          contended.state.state) :=
  locked_reader_conserves (by decide) (by decide) (by decide) (by decide)
    .camera contention contended contended_reached

end Threads

end SmartFridge.LockedReader
