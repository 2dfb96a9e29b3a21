import SmartFridge.Schema

/-!
# The database daemon

`db_insert`, `db_remove` and `msg_decoder` on top of the SQLite calls they make.
The outcomes of these calls are given in advance, call by call, so that a run
may meet a failure at any point; apart from these only constraints fail.  The
ledger of statements and connections is part of the state.

BEGIN and END are prepared and never stepped, so that every other statement
takes effect on its own, and the statement of END is never finalised.
-/

namespace SmartFridge.Daemon

open SmartFridge.Library
open SmartFridge.ProductDecoder
open SmartFridge.Schema

/-! ## SQLite -/

/-- A query of DB_QUERIES with the values that are bound to it. -/
inductive Statement where
  | change (change : Change)
  | beginTransaction
  | endTransaction

/-- A prepared statement. -/
structure Handle where
  ident : Nat
  statement : Statement

/--
A connection: its statements that are not finalised, and the tables to which
an open transaction would be rolled back.
-/
structure Connection where
  statements : List Nat
  rollback : Option Tables

/-- The connection with one more statement. -/
def Connection.register (ident : Nat) (connection : Connection) : Connection :=
  { connection with statements := ident :: connection.statements }

/-- The connection without a statement. -/
def Connection.release (ident : Nat) (connection : Connection) : Connection :=
  { connection with statements := connection.statements.erase ident }

/-- The messages that the operations log as errors. -/
inductive LogEntry where
  | unknownMsgFormat
  | productInsertError
  | productRemoveError
  | tagsInsertError (kind : TagTable)
  | productImagesError
  | dbCopySentError
  | decoderError
deriving DecidableEq

/--
The state of the daemon.  The connection that was opened last is the one in
use; one that is closed before its statements lives on as a zombie.
-/
structure State where
  tables : Tables
  /-- Whether the next calls fail; none does after the end of the list. -/
  script : List Bool
  connections : List Connection
  zombies : List Connection
  /-- The number of statements prepared so far. -/
  issued : Nat
  /-- The statements passed to `sqlite3_finalize`. -/
  finalised : List Nat
  log : List LogEntry

/-- The daemon after `create_db`, with calls that do not fail. -/
def State.start : State :=
  { tables := .fresh
    script := []
    connections := []
    zombies := []
    issued := 0
    finalised := []
    log := [] }

/-- The fate of the next call. -/
def State.fails (state : State) : Bool :=
  state.script.headD false

/-- The state after a call has met its fate. -/
def State.proceed (state : State) : State :=
  { state with script := state.script.tail }

/-- A call of `sf_error`. -/
def State.sfError (state : State) (entry : LogEntry) : State :=
  { state with log := state.log ++ [entry] }

/-- What `sqlite3_step` returns, other errors taken as one. -/
inductive Outcome where
  | done
  | constraint
  | error
deriving DecidableEq

/-- A change of the connection in use. -/
def State.onConnection (state : State) (change : Connection → Connection) :
    State :=
  { state with
    connections :=
      match state.connections with
      | [] => []
      | connection :: others => change connection :: others }

/-- The execution of a statement that does not fail otherwise. -/
def State.execute (state : State) : Statement → Outcome × State
  | .change change =>
      match change.exec state.tables with
      | some tables => (.done, { state with tables })
      | none => (.constraint, state)
  | .beginTransaction =>
      if state.connections.head?.bind Connection.rollback |>.isNone then
        (.done, state.onConnection fun connection =>
          { connection with rollback := some state.tables })
      else
        (.error, state)
  | .endTransaction =>
      if state.connections.head?.bind Connection.rollback |>.isNone then
        (.error, state)
      else
        (.done, state.onConnection fun connection =>
          { connection with rollback := none })

/-- `sqlite3_finalize` of a statement. -/
def State.finalize (state : State) (ident : Nat) : State :=
  { state.onConnection (.release ident) with
    finalised := state.finalised ++ [ident] }

/-- `sqlite3_close_v2`, which rolls an open transaction back. -/
def State.close (state : State) : State :=
  match state.connections with
  | [] => state
  | connection :: others =>
      if connection.statements = [] then
        { state with
          connections := others
          tables := connection.rollback.getD state.tables }
      else
        { state with
          connections := others
          zombies := connection :: state.zombies }

/-! ## The frame of an operation -/

/-- The state with the local variables `db` and `stmt`. -/
structure Frame where
  state : State
  /-- Whether `db` is not NULL. -/
  db : Bool
  stmt : Option Handle

namespace Frame

/-- `sqlite3_open_v2`; a failed one leaves nothing to be used. -/
def openV2 (frame : Frame) : Except Frame Frame :=
  if frame.state.fails then
    .error { frame with state := frame.state.proceed }
  else
    .ok
      { frame with
        state :=
          { frame.state.proceed with
            connections := ⟨[], none⟩ :: frame.state.connections }
        db := true }

/-- `sqlite3_prepare_v2`, with the calls that bind the values. -/
def prepareV2 (statement : Statement) (frame : Frame) : Except Frame Frame :=
  if frame.db = false then
    .error { frame with stmt := none }
  else if frame.state.fails then
    .error { frame with state := frame.state.proceed, stmt := none }
  else
    let ident := frame.state.issued
    .ok
      { frame with
        state :=
          { frame.state.proceed.onConnection (.register ident) with
            issued := ident + 1 }
        stmt := some { ident, statement } }

/-- `sqlite3_step`. -/
def step (frame : Frame) : Outcome × Frame :=
  match frame.stmt with
  | none => (.error, frame)
  | some handle =>
      if frame.state.fails then
        (.error, { frame with state := frame.state.proceed })
      else
        let (outcome, state) := frame.state.proceed.execute handle.statement
        (outcome, { frame with state })

/-- `sqlite3_finalize`, after which `stmt` still has its value. -/
def finalize (frame : Frame) : Frame :=
  match frame.stmt with
  | none => frame
  | some handle => { frame with state := frame.state.finalize handle.ident }

/-- `stmt = NULL`. -/
def clear (frame : Frame) : Frame :=
  { frame with stmt := none }

/-- A step that has to be done. -/
def stepDone (frame : Frame) : Except Frame Frame :=
  match frame.step with
  | (.done, frame) => .ok frame
  | (_, frame) => .error frame

/-- A step that may also violate a constraint. -/
def stepTolerant (frame : Frame) : Except Frame Frame :=
  match frame.step with
  | (.error, frame) => .error frame
  | (_, frame) => .ok frame

/-- A call of a function on `db` that returns nonzero on failure. -/
def call (function : Bool → State → Int × State) (entry : LogEntry)
    (frame : Frame) : Except Frame Frame :=
  let (failed, state) := function frame.db frame.state
  if failed ≠ 0 then
    .error { frame with state := state.sfError entry }
  else
    .ok { frame with state }

/-- The label `end` of `db_insert` and `db_remove`. -/
def leave (result : Except Frame Frame) : Int × State :=
  let (retval, frame) : Int × Frame :=
    match result with
    | .ok frame => (0, frame)
    | .error frame => (1, frame)
  let frame :=
    match frame.finalize.prepareV2 .endTransaction with
    | .ok frame => frame
    | .error frame => frame
  (retval, if frame.db then frame.state.close else frame.state)

/-- The label `end` of `insert_tags` and `insert_images`. -/
def leaveInner (result : Except Frame Frame) : Int × State :=
  match result with
  | .ok frame => (0, frame.finalize.state)
  | .error frame => (1, frame.finalize.state)

end Frame

/-! ## sf_db.c -/

/-- The name and the language of a tag. -/
def splitTag (tag : CString) : CString × Option CString :=
  match tag.cut Json.colon with
  | some (language, name) => (name, some language)
  | none => (tag, none)

example :
    splitTag (.lit "en:whole:milk") =
      (.lit "whole:milk", some (.lit "en")) := by
  decide

/-- The query of a tag. -/
def insertTagChange (kind : TagTable) (productCode : Option CString)
    (tag : CString) : Change :=
  .insertTag kind productCode (some (splitTag tag).1) (splitTag tag).2

/-- The body of the loop of `insert_tags`. -/
def insertTag (kind : TagTable) (productCode : Option CString)
    (frame : Frame) (tag : CString) : Except Frame Frame := do
  let frame ← frame.prepareV2 (.change (insertTagChange kind productCode tag))
  let frame ← frame.stepTolerant
  return frame.finalize.clear

/-- `insert_tags`. -/
def insertTags (kind : TagTable) (array : Option (List CString))
    (productCode : Option CString) (db : Bool) (state : State) : Int × State :=
  Frame.leaveInner <|
    (array.getD []).foldlM (insertTag kind productCode)
      { state, db, stmt := none }

/-- `insert_images`. -/
def insertImages (images : ProductImages) (productCode : Option CString)
    (db : Bool) (state : State) : Int × State :=
  Frame.leaveInner do
    let frame : Frame := { state, db, stmt := none }
    let frame ← frame.prepareV2 (.change (.insertImages productCode images))
    let frame ← frame.stepTolerant
    return frame.finalize.clear

/-- The start of both operations: `db` is opened and BEGIN is not executed. -/
def openTransaction (state : State) : Except Frame Frame := do
  let frame : Frame := { state, db := false, stmt := none }
  let frame ← frame.openV2
  let frame ← frame.prepareV2 .beginTransaction
  return frame.finalize

/-- The step of the insertion; a product that exists has its number increased. -/
def insertOrIncrease (prDec : Product) (frame : Frame) : Except Frame Frame :=
  match frame.step with
  | (.done, frame) => .ok frame
  | (.constraint, frame) => do
      let frame ← frame.finalize.prepareV2
        (.change (.incProductNumber prDec.number prDec.name))
      frame.stepDone
  | (.error, frame) => .error frame

/-- The part of `db_insert` on PRODUCTS_DATA. -/
def insertProductData (prDec : Product) (frame : Frame) :
    Except Frame Frame := do
  let frame ← frame.prepareV2 (.change (.insertProductData prDec))
  let frame ← insertOrIncrease prDec frame
  return frame.finalize.clear

/-- `db_insert`. -/
def dbInsert (prDec : Product) (state : State) : Int × State :=
  Frame.leave do
    let frame ← openTransaction state
    let frame ← insertProductData prDec frame
    let frame ← frame.call
      (insertTags .ingredients prDec.ingredientsTags prDec.code)
      (.tagsInsertError .ingredients)
    let frame ← frame.call
      (insertTags .allergens prDec.allergensTags prDec.code)
      (.tagsInsertError .allergens)
    let frame ← frame.call
      (insertTags .additives prDec.additivesTags prDec.code)
      (.tagsInsertError .additives)
    frame.call (insertImages prDec.images prDec.code) .productImagesError

/-- `db_remove`. -/
def dbRemove (prDec : Product) (state : State) : Int × State :=
  Frame.leave do
    let frame ← openTransaction state
    let frame ← frame.prepareV2 (.change (.removeProduct prDec.code))
    let frame ← frame.stepDone
    let frame ← frame.finalize.prepareV2 (.change .cleanEmpty)
    frame.stepDone

/-- DB_SYNC_HEADER. -/
abbrev dbSyncHeader : CString := .lit "!#2+"

/-- CONTINUE_IT. -/
abbrev continueIt : Int := 32

/--
`msg_decoder`, where `sent` is the result that `database_send` would have.
There is no result if the product decoder reads a NULL string.
-/
def msgDecoder (internalHeader : CString) (parse : CString → Option Json)
    (sent : Int) (msg : CString) (state : State) : Option (Int × State) :=
  if internalHeader.bytes <+: msg.bytes then
    match sfPrDecoder parse (msg.drop internalHeader.bytes.length) with
    | none => none
    | some (_, none) => some (1, state)
    | some (result, some prDec) =>
        if result = deletionReq then
          let (failed, state) := dbRemove prDec state
          if failed ≠ 0 then
            some (1, state.sfError .productInsertError)
          else
            some (0, state)
        else
          let (failed, state) := dbInsert prDec state
          if failed ≠ 0 then
            some (1, state.sfError .productRemoveError)
          else
            some (0, state)
  else if dbSyncHeader.bytes <+: msg.bytes then
    if sent ≠ 0 then
      some (1, state.sfError .dbCopySentError)
    else
      some (continueIt, state)
  else
    some (1, state.sfError .unknownMsgFormat)

end SmartFridge.Daemon
