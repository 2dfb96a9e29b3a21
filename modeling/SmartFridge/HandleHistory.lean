import SmartFridge.DatabaseSend
import SmartFridge.Dispatch
import SmartFridge.Handles
import SmartFridge.Segmentation

/-!
# The handles of the daemon

`create_db` closes its connection only at its normal end, and `database_send`
closes its descriptor nowhere.  Together with the operations they are the steps
of a history, along which nothing is left exactly if each step releases what it
takes.
-/

namespace SmartFridge.HandleHistory

open SmartFridge.Library
open SmartFridge.Library.Runs
open SmartFridge.ProductDecoder
open SmartFridge.Schema
open SmartFridge.Daemon
open SmartFridge.Dispatch
open SmartFridge.Handles
open SmartFridge.Segmentation (asked)

/-! ## create_db -/

/-- The statements of `database_schema`. -/
inductive SchemaStatement where
  | beginTransaction
  | createProductsData
  | createTags (kind : TagTable)
  | createImages
  | endTransaction
deriving DecidableEq

/-- `database_schema`. -/
def databaseSchema : List SchemaStatement :=
  [.beginTransaction, .createProductsData, .createTags .ingredients,
    .createTags .allergens, .createTags .additives, .createImages,
    .endTransaction]

/-- What `sqlite3_open_v2` does; a failed one may also give a handle. -/
inductive Opening where
  | opened
  | failed (handle : Bool)

/-- What `sqlite3_step` returns, as far as `create_db` tells it apart. -/
inductive Stepped where
  | misuse
  | row
  | done
  | other
deriving DecidableEq

/-- The outcomes of the calls of `create_db`. -/
structure CreateCalls where
  openV2 : Opening
  /-- Whether the preparation of a statement succeeds. -/
  prepareV2 : SchemaStatement → Bool
  step : SchemaStatement → Stepped

/-- A connection is opened. -/
def connect (state : State) : State :=
  { state with connections := ⟨[], none⟩ :: state.connections }

/-- A statement of the schema is done; the tables of a state exist already. -/
def takeEffect (state : State) : SchemaStatement → State
  | .beginTransaction =>
      state.onConnection fun connection =>
        { connection with rollback := some state.tables }
  | .endTransaction =>
      state.onConnection fun connection => { connection with rollback := none }
  | _ => state

/-- The body of the loop of `create_db`. -/
def createStatement (calls : CreateCalls) (state : State)
    (statement : SchemaStatement) : Except State State :=
  if calls.prepareV2 statement then
    let ident := state.issued
    let state :=
      { state.onConnection (.register ident) with issued := ident + 1 }
    match calls.step statement with
    | .misuse => .ok (state.finalize ident)
    | .row => .ok (state.finalize ident)
    | .done => .ok ((takeEffect state statement).finalize ident)
    | .other => .error (state.finalize ident)
  else
    -- Here `stmt` is NULL, and its finalisation does nothing.
    .error state

/-! ## database_send -/

/-- The result of `database_send`, and the descriptors that are open then. -/
def databaseSendOn (calls : DatabaseSend.Calls) (descriptors : List Int) :
    Int × List Int :=
  let descriptors :=
    if 0 ≤ calls.dbFd then calls.dbFd :: descriptors else descriptors
  if calls.dbFd = 0 then
    (1, descriptors)
  else if calls.fstat < 0 then
    (1, descriptors)
  else if calls.send < 0 then
    (1, descriptors)
  else
    (0, descriptors)

theorem databaseSendOn_fst (file : List UInt8) (calls : DatabaseSend.Calls)
    (descriptors : List Int) :
    (databaseSendOn calls descriptors).1 =
      (DatabaseSend.databaseSend file calls).1 := by
  unfold databaseSendOn DatabaseSend.databaseSend
  simp only [apply_ite Prod.fst]

/-- None of its exits closes the descriptor. -/
theorem databaseSendOn_snd (calls : DatabaseSend.Calls)
    (descriptors : List Int) :
    (databaseSendOn calls descriptors).2 =
      if 0 ≤ calls.dbFd then calls.dbFd :: descriptors else descriptors := by
  unfold databaseSendOn
  simp only [apply_ite Prod.snd, ite_self]

/-! ## The daemon with its handles -/

/-- The daemon, with the handles that its own state does not show. -/
structure World where
  daemon : State
  /-- The connections passed to `sqlite3_close_v2`, as they were then. -/
  closed : List Connection
  /-- The open descriptors of `database_send`. -/
  descriptors : List Int

/-- A daemon that holds nothing. -/
def World.start : World :=
  { daemon := .start, closed := [], descriptors := [] }

/-- The operations, with the connections that they close. -/
def tracking : Operations World where
  perform := fun call world =>
    let (failed, daemon) := call.perform world.daemon
    (failed,
      { world with
        daemon
        closed := world.closed ++ (closing call world.daemon).toList })
  sfError := fun entry world =>
    { world with daemon := world.daemon.sfError entry }

/-- `create_db`. -/
def createDb (calls : CreateCalls) (world : World) : Int × World :=
  match calls.openV2 with
  | .failed handle =>
      (1, if handle then { world with daemon := connect world.daemon }
        else world)
  | .opened =>
      match databaseSchema.foldlM (createStatement calls)
          (connect world.daemon) with
      | .error daemon => (1, { world with daemon })
      | .ok daemon =>
          (0,
            { world with
              daemon := daemon.close
              closed := world.closed ++ daemon.connections.head?.toList })

/-- The message makes `msg_decoder` call `database_send`. -/
def Syncs (internalHeader msg : CString) : Prop :=
  ¬ internalHeader.bytes <+: msg.bytes ∧ dbSyncHeader.bytes <+: msg.bytes

instance (internalHeader msg : CString) : Decidable (Syncs internalHeader msg) :=
  inferInstanceAs (Decidable (¬ _ ∧ _))

/-- What happens to the daemon, with the outcomes of the calls that it makes. -/
inductive Event where
  | msgDecoder (msg : CString) (script : List Bool)
      (calls : DatabaseSend.Calls)
  | createDb (calls : CreateCalls)

/-- The daemon when a message arrives, and `database_send` if it asks for it. -/
def received (internalHeader msg : CString) (script : List Bool)
    (calls : DatabaseSend.Calls) (world : World) : Int × World :=
  let world := { world with daemon := { world.daemon with script } }
  if Syncs internalHeader msg then
    let (sent, descriptors) := databaseSendOn calls world.descriptors
    (sent, { world with descriptors })
  else
    (0, world)

/-- The daemon after an event, unless the product decoder fails. -/
def step (internalHeader : CString) (parse : CString → Option Json)
    (world : World) : Event → Option World
  | .msgDecoder msg script calls =>
      let (sent, world) := received internalHeader msg script calls world
      (msgDecoderWith tracking internalHeader parse sent msg world).map Prod.snd
  | .createDb calls => some (HandleHistory.createDb calls world).2

/-! ## The daemon in its history -/

section Daemon

variable (internalHeader : CString) (parse : CString → Option Json)

/-- The tracked operations are those of the daemon. -/
theorem tracking_daemon (sent : Int) (msg : CString) (world : World) :
    (msgDecoderWith tracking internalHeader parse sent msg world).map
        (Prod.map id World.daemon) =
      msgDecoder internalHeader parse sent msg world.daemon := by
  rw [msgDecoder_eq]
  exact msgDecoderWith_map tracking daemonOperations World.daemon
    (fun _ _ => rfl) (fun _ _ => rfl) internalHeader parse sent msg world

/-- Without a copy, its result does not matter. -/
theorem msgDecoder_of_not_syncs {msg : CString}
    (foreign : ¬ Syncs internalHeader msg) (sent other : Int) (state : State) :
    msgDecoder internalHeader parse sent msg state =
      msgDecoder internalHeader parse other msg state := by
  unfold msgDecoder
  by_cases headed : internalHeader.bytes <+: msg.bytes
  · rw [if_pos headed, if_pos headed]
  · rw [if_neg headed, if_neg headed,
      if_neg fun synced => foreign ⟨headed, synced⟩,
      if_neg fun synced => foreign ⟨headed, synced⟩]

theorem received_daemon (msg : CString) (script : List Bool)
    (calls : DatabaseSend.Calls) (world : World) :
    (received internalHeader msg script calls world).2.daemon =
      { world.daemon with script } := by
  unfold received
  split
  · rfl
  · rfl

/-- The daemon in a history handles a message as it does without one. -/
theorem step_daemon (file : List UInt8) (world : World) (msg : CString)
    (script : List Bool) (calls : DatabaseSend.Calls) :
    (step internalHeader parse world (.msgDecoder msg script calls)).map
        World.daemon =
      (msgDecoder internalHeader parse
        (DatabaseSend.databaseSend file calls).1 msg
        { world.daemon with script }).map Prod.snd := by
  have tracked := tracking_daemon internalHeader parse
    (received internalHeader msg script calls world).1 msg
    (received internalHeader msg script calls world).2
  rw [received_daemon] at tracked
  have same :
      msgDecoder internalHeader parse
          (received internalHeader msg script calls world).1 msg
          { world.daemon with script } =
        msgDecoder internalHeader parse
          (DatabaseSend.databaseSend file calls).1 msg
          { world.daemon with script } := by
    by_cases syncs : Syncs internalHeader msg
    · rw [← databaseSendOn_fst file calls world.descriptors, received,
        if_pos syncs]
    · exact msgDecoder_of_not_syncs internalHeader parse syncs _ _ _
  rw [← same, ← tracked, Option.map_map]
  exact Option.map_map _ _ _

end Daemon

/-! ## What is left -/

/--
Nothing is left of what was taken since: the statements are finalised, and the
connections are closed without a statement and without a transaction.
-/
structure NothingLeft (before after : World) : Prop where
  released : Released before.daemon after.daemon
  clean : ∃ closed, after.closed = before.closed ++ closed ∧
    ∀ connection ∈ closed, connection = ⟨[], none⟩
  descriptors : after.descriptors = before.descriptors

/-- Something is left: a handle more than before, or a transaction at a close. -/
inductive Leaves (before after : World) : Prop
  | connection
      (more : before.daemon.connections.length <
        after.daemon.connections.length)
  | zombie
      (more : before.daemon.zombies.length < after.daemon.zombies.length)
  | descriptor (more : before.descriptors.length < after.descriptors.length)
  | unclean {connection : Connection}
      (closed : after.closed = before.closed ++ [connection])
      (unclean : connection ≠ ⟨[], none⟩)

theorem NothingLeft.refl (world : World) : NothingLeft world world where
  released := .refl world.daemon
  clean := ⟨[], (List.append_nil _).symm, List.forall_mem_nil _⟩
  descriptors := rfl

theorem NothingLeft.trans {first second third : World}
    (early : NothingLeft first second) (late : NothingLeft second third) :
    NothingLeft first third where
  released := early.released.trans late.released
  clean := by
    rcases early.clean with ⟨sooner, closed, clean⟩
    rcases late.clean with ⟨later, closedLater, cleanLater⟩
    refine ⟨sooner ++ later, ?_, ?_⟩
    · rw [closedLater, closed, List.append_assoc]
    · intro connection member
      rcases List.mem_append.mp member with first | second
      · exact clean connection first
      · exact cleanLater connection second
  descriptors := late.descriptors.trans early.descriptors

/-- What is left once is not made up for later. -/
theorem Leaves.not_nothingLeft {start before after : World}
    (leaves : Leaves before after) (left : NothingLeft start before) :
    ¬ NothingLeft start after := by
  intro none
  cases leaves with
  | connection more =>
      rw [none.released.connections, left.released.connections] at more
      exact lt_irrefl _ more
  | zombie more =>
      rw [none.released.zombies, left.released.zombies] at more
      exact lt_irrefl _ more
  | descriptor more =>
      rw [none.descriptors, left.descriptors] at more
      exact lt_irrefl _ more
  | unclean closed unclean =>
      rcases left.clean with ⟨sooner, before, _⟩
      rcases none.clean with ⟨all, after, clean⟩
      rw [closed, before, List.append_assoc] at after
      apply unclean
      apply clean
      rw [← List.append_cancel_left after]
      exact List.mem_append_right _ (List.mem_singleton_self _)

/-- What `NothingLeft` is about. -/
def worldHandles (world : World) :
    (List Connection × List Connection × Nat × List Nat) × List Connection ×
      List Int :=
  (handlesOf world.daemon, world.closed, world.descriptors)

theorem NothingLeft.congr {before after other : World}
    (left : NothingLeft before after)
    (same : worldHandles other = worldHandles after) :
    NothingLeft before other := by
  simp only [worldHandles, Prod.mk.injEq] at same
  rcases same with ⟨handles, closed, descriptors⟩
  exact
    { released := left.released.congr handles
      clean := closed ▸ left.clean
      descriptors := descriptors.trans left.descriptors }

theorem Leaves.congr {before after earlier later : World}
    (leaves : Leaves before after)
    (sooner : worldHandles earlier = worldHandles before)
    (same : worldHandles later = worldHandles after) :
    Leaves earlier later := by
  simp only [worldHandles, handlesOf, Prod.mk.injEq] at sooner same
  rcases sooner with ⟨⟨connections, zombies, _⟩, closed, descriptors⟩
  rcases same with
    ⟨⟨connectionsLater, zombiesLater, _⟩, closedLater, descriptorsLater⟩
  cases leaves with
  | connection more =>
      apply Leaves.connection
      rw [connections, connectionsLater]
      exact more
  | zombie more =>
      apply Leaves.zombie
      rw [zombies, zombiesLater]
      exact more
  | descriptor more =>
      apply Leaves.descriptor
      rw [descriptors, descriptorsLater]
      exact more
  | unclean last unclean =>
      apply Leaves.unclean _ unclean
      rw [closedLater, closed, last]

/-! ## Messages -/

section Messages

variable (internalHeader : CString) (parse : CString → Option Json)

/-- The operation that a message makes `msg_decoder` call. -/
def called (msg : CString) : Option Call :=
  if internalHeader.bytes <+: msg.bytes then
    asked parse (msg.drop internalHeader.bytes.length)
  else
    none

/-- The world behind an operation, if there is one. -/
def afterCall : Option Call → World → World
  | none, world => world
  | some call, world => (tracking.perform call world).2

variable {internalHeader parse}

/-- What `msg_decoder` does besides the operation touches no handle. -/
theorem worldHandles_of_decoded {sent result : Int} {msg : CString}
    {world next : World}
    (decoded : msgDecoderWith tracking internalHeader parse sent msg world =
      some (result, next)) :
    worldHandles next =
      worldHandles (afterCall (called internalHeader parse msg) world) := by
  unfold msgDecoderWith at decoded
  unfold called asked
  by_cases headed : internalHeader.bytes <+: msg.bytes
  · rw [if_pos headed] at decoded ⊢
    revert decoded
    rcases sfPrDecoder parse (msg.drop internalHeader.bytes.length) with
      _ | ⟨retval, _ | prDec⟩
    · intro impossible
      cases impossible
    · intro decoded
      cases decoded
      rfl
    · intro decoded
      dsimp only at decoded ⊢
      by_cases removal : retval = deletionReq
      · rw [if_pos removal] at decoded ⊢
        split at decoded
        · cases decoded
          rfl
        · cases decoded
          rfl
      · rw [if_neg removal] at decoded ⊢
        split at decoded
        · cases decoded
          rfl
        · cases decoded
          rfl
  · rw [if_neg headed] at decoded ⊢
    split at decoded
    · split at decoded
      · cases decoded
        rfl
      · cases decoded
        rfl
    · cases decoded
      rfl

theorem perform_nothingLeft {call : Call} {world : World}
    (releases : ReleasesAll call world.daemon) :
    NothingLeft world (tracking.perform call world).2 := by
  rcases released_of_releasesAll releases with ⟨released, clean⟩
  refine ⟨released, ⟨(closing call world.daemon).toList, rfl, ?_⟩, rfl⟩
  intro connection member
  exact clean connection (Option.mem_toList.mp member)

theorem perform_leaves {call : Call} {world : World}
    (holding : ¬ ReleasesAll call world.daemon) :
    Leaves world (tracking.perform call world).2 := by
  rcases zombies_of_not_releasesAll holding with ⟨ident, zombies⟩
  apply Leaves.zombie
  change _ < (call.perform world.daemon).2.zombies.length
  rw [zombies, List.length_cons]
  exact Nat.lt_succ_self _

/-- The operation of a message releases all, and no descriptor is opened. -/
structure MessageReleases (internalHeader : CString)
    (parse : CString → Option Json) (msg : CString) (script : List Bool)
    (calls : DatabaseSend.Calls) (daemon : State) : Prop where
  operation : ∀ call, called internalHeader parse msg = some call →
    ReleasesAll call { daemon with script }
  copy : Syncs internalHeader msg → calls.dbFd < 0

section Received

variable (internalHeader msg : CString) (script : List Bool)
  (calls : DatabaseSend.Calls) (world : World)

theorem received_of_syncs (syncs : Syncs internalHeader msg)
    (opened : ¬ calls.dbFd < 0) :
    worldHandles (received internalHeader msg script calls world).2 =
      worldHandles
        { world with descriptors := calls.dbFd :: world.descriptors } := by
  rw [received, if_pos syncs]
  simp only [worldHandles, databaseSendOn_snd, if_pos (not_lt.mp opened)]
  rfl

theorem received_of_not_opened
    (unopened : Syncs internalHeader msg → calls.dbFd < 0) :
    worldHandles (received internalHeader msg script calls world).2 =
      worldHandles world := by
  rw [received]
  by_cases syncs : Syncs internalHeader msg
  · rw [if_pos syncs]
    simp only [worldHandles, databaseSendOn_snd,
      if_neg (not_le.mpr (unopened syncs))]
    rfl
  · rw [if_neg syncs]
    rfl

end Received

/-- A message with an operation is no request for a copy. -/
theorem not_syncs_of_called {msg : CString} {call : Call}
    (calls : called internalHeader parse msg = some call) :
    ¬ Syncs internalHeader msg := by
  intro syncs
  rw [called, if_neg syncs.1] at calls
  cases calls

/-- A message leaves nothing, or it does not release all. -/
theorem message_cases {msg : CString} {script : List Bool}
    {calls : DatabaseSend.Calls} {world next : World}
    (handled : step internalHeader parse world (.msgDecoder msg script calls) =
      some next) :
    MessageReleases internalHeader parse msg script calls world.daemon ∧
        NothingLeft world next ∨
      ¬ MessageReleases internalHeader parse msg script calls world.daemon ∧
        Leaves world next := by
  rcases Option.map_eq_some_iff.mp handled with ⟨⟨result, _⟩, decoded, rfl⟩
  have same := worldHandles_of_decoded decoded
  have daemon := received_daemon internalHeader msg script calls world
  cases operation : called internalHeader parse msg with
  | none =>
      rw [operation] at same
      by_cases copy : Syncs internalHeader msg → calls.dbFd < 0
      · have before := received_of_not_opened internalHeader msg script calls
          world copy
        refine .inl ⟨⟨?_, copy⟩,
          (NothingLeft.refl world).congr (same.trans before)⟩
        intro call asked
        cases operation.symm.trans asked
      · refine .inr ⟨fun releases => copy releases.copy, ?_⟩
        rcases Classical.not_imp.mp copy with ⟨syncs, opened⟩
        have before := received_of_syncs internalHeader msg script calls world
          syncs opened
        have more : Leaves world
            { world with descriptors := calls.dbFd :: world.descriptors } :=
          .descriptor (Nat.lt_succ_self _)
        exact more.congr rfl (same.trans before)
  | some call =>
      rw [operation] at same
      have foreign := not_syncs_of_called operation
      have before := received_of_not_opened internalHeader msg script calls
        world fun syncs => absurd syncs foreign
      by_cases releases : ReleasesAll call { world.daemon with script }
      · refine .inl ⟨⟨?_, fun syncs => absurd syncs foreign⟩, ?_⟩
        · intro other asked
          cases operation.symm.trans asked
          exact releases
        · rw [← daemon] at releases
          have left := perform_nothingLeft releases
          exact (((NothingLeft.refl world).congr before).trans left).congr same
      · refine .inr ⟨fun all => releases (all.operation call operation), ?_⟩
        rw [← daemon] at releases
        exact (perform_leaves releases).congr before.symm same

end Messages

/-! ## The creation -/

/-- A statement of the schema is prepared and its step is no error. -/
def Passes (calls : CreateCalls) (statement : SchemaStatement) : Prop :=
  calls.prepareV2 statement = true ∧ calls.step statement ≠ .other

/-- Whether a transaction is open behind a statement. -/
def inTransaction (calls : CreateCalls) (before : Bool)
    (statement : SchemaStatement) : Bool :=
  if calls.step statement = .done then
    match statement with
    | .beginTransaction => true
    | .endTransaction => false
    | _ => before
  else
    before

section Creation

variable (calls : CreateCalls) {before : State}

theorem takeEffect_ledger {state : State} {statements : List Nat}
    {rollback : Option Tables} {statement : SchemaStatement}
    (done : calls.step statement = .done)
    (ledger : Ledger before ⟨statements, rollback⟩ state) :
    ∃ transaction,
      Ledger before ⟨statements, transaction⟩ (takeEffect state statement) ∧
        transaction.isSome =
          inTransaction calls rollback.isSome statement := by
  unfold inTransaction
  rw [if_pos done]
  cases statement with
  | beginTransaction => exact ⟨_, ledger.transaction (some state.tables), rfl⟩
  | endTransaction => exact ⟨_, ledger.transaction none, rfl⟩
  | createProductsData => exact ⟨_, ledger, rfl⟩
  | createTags kind => exact ⟨_, ledger, rfl⟩
  | createImages => exact ⟨_, ledger, rfl⟩

theorem createStatement_cases {state : State} {rollback : Option Tables}
    (ledger : Ledger before ⟨[], rollback⟩ state)
    (statement : SchemaStatement) :
    (¬ Passes calls statement ∧ ∃ next,
        createStatement calls state statement = .error next ∧
          Ledger before ⟨[], rollback⟩ next) ∨
      Passes calls statement ∧ ∃ next transaction,
        createStatement calls state statement = .ok next ∧
          Ledger before ⟨[], transaction⟩ next ∧
            transaction.isSome =
              inTransaction calls rollback.isSome statement := by
  unfold createStatement
  by_cases prepared : calls.prepareV2 statement = true
  · rw [if_pos prepared]
    have registered := ledger.register
    have finalised := registered.finalize
    have kept : ∀ outcome, calls.step statement = outcome → outcome ≠ .done →
        rollback.isSome = inTransaction calls rollback.isSome statement := by
      intro outcome stepped idle
      unfold inTransaction
      rw [stepped, if_neg idle]
    dsimp only
    cases stepped : calls.step statement with
    | misuse =>
        exact .inr ⟨⟨prepared, by simp [stepped]⟩, _, rollback, rfl, finalised,
          kept _ stepped (by decide)⟩
    | row =>
        exact .inr ⟨⟨prepared, by simp [stepped]⟩, _, rollback, rfl, finalised,
          kept _ stepped (by decide)⟩
    | done =>
        rcases takeEffect_ledger calls stepped registered with
          ⟨transaction, taken, same⟩
        exact .inr ⟨⟨prepared, by simp [stepped]⟩, _, transaction, rfl,
          taken.finalize, same⟩
    | other =>
        exact .inl ⟨fun passes => passes.2 stepped, _, rfl, finalised⟩
  · rw [if_neg prepared]
    exact .inl ⟨fun passes => prepared passes.1, state, rfl, ledger⟩

/-- The loop of `create_db`, by induction on the statements. -/
theorem createLoop_cases (statements : List SchemaStatement)
    {state : State} {rollback : Option Tables}
    (ledger : Ledger before ⟨[], rollback⟩ state) :
    ((¬ ∀ statement ∈ statements, Passes calls statement) ∧
        ∃ next transaction,
          statements.foldlM (createStatement calls) state = .error next ∧
            Ledger before ⟨[], transaction⟩ next) ∨
      (∀ statement ∈ statements, Passes calls statement) ∧
        ∃ next transaction,
          statements.foldlM (createStatement calls) state = .ok next ∧
            Ledger before ⟨[], transaction⟩ next ∧
              transaction.isSome =
                statements.foldl (inTransaction calls) rollback.isSome := by
  induction statements generalizing state rollback with
  | nil => exact .inr ⟨List.forall_mem_nil _, state, rollback, rfl, ledger, rfl⟩
  | cons statement rest ih =>
      rw [List.foldlM_cons, List.foldl_cons, List.forall_mem_cons]
      rcases createStatement_cases calls ledger statement with
        ⟨stops, next, created, ledger⟩ |
          ⟨passes, next, after, created, ledger, same⟩
      · rw [created]
        exact .inl ⟨fun all => stops all.1, next, rollback, rfl, ledger⟩
      · rw [created, ← same]
        rcases ih ledger with ⟨stops, later⟩ | ⟨others, later⟩
        · exact .inl ⟨fun all => stops all.2, later⟩
        · exact .inr ⟨⟨passes, others⟩, later⟩

end Creation

/--
The open fails without a handle, or all statements are executed and no
transaction is left.
-/
def CreationReleases (calls : CreateCalls) : Prop :=
  match calls.openV2 with
  | .failed handle => handle = false
  | .opened =>
      (∀ statement ∈ databaseSchema, Passes calls statement) ∧
        (calls.step .beginTransaction = .done →
          calls.step .endTransaction = .done)

/-- The schema leaves a transaction exactly if its END does not end it. -/
theorem inTransaction_databaseSchema (calls : CreateCalls) :
    databaseSchema.foldl (inTransaction calls) false = false ↔
      (calls.step .beginTransaction = .done →
        calls.step .endTransaction = .done) := by
  by_cases began : calls.step .beginTransaction = .done
  · by_cases done : calls.step .endTransaction = .done
    · simp [databaseSchema, inTransaction, began, done]
    · simp [databaseSchema, inTransaction, began, done]
  · simp [databaseSchema, inTransaction, began]

theorem connect_ledger (state : State) :
    Ledger state ⟨[], none⟩ (connect state) where
  connections := rfl
  zombies := rfl
  prepared := le_refl _
  finalised := by
    rw [preparedSince]
    simp [connect]

/-- `create_db` leaves nothing, or it does not release all. -/
theorem creation_cases (calls : CreateCalls) (world : World) :
    CreationReleases calls ∧ NothingLeft world (createDb calls world).2 ∨
      ¬ CreationReleases calls ∧ Leaves world (createDb calls world).2 := by
  unfold CreationReleases createDb
  cases calls.openV2 with
  | failed handle =>
      cases handle with
      | false => exact .inl ⟨rfl, .refl world⟩
      | true =>
          exact .inr ⟨Bool.false_ne_true ∘ Eq.symm,
            .connection (Nat.lt_succ_self _)⟩
  | opened =>
      dsimp only
      rcases createLoop_cases calls databaseSchema
          (connect_ledger world.daemon) with
        ⟨stops, next, transaction, created, ledger⟩ |
          ⟨passes, next, transaction, created, ledger, same⟩
      · rw [created]
        refine .inr ⟨fun all => stops all.1, .connection ?_⟩
        change _ < next.connections.length
        rw [ledger.connections, List.length_cons]
        exact Nat.lt_succ_self _
      · rw [created, ← inTransaction_databaseSchema]
        have closed :
            next.connections.head?.toList = [⟨[], transaction⟩] := by
          rw [ledger.connections]
          rfl
        cases transaction with
        | none =>
            refine .inl ⟨⟨passes, same.symm⟩, ledger.close, ?_, rfl⟩
            exact ⟨_, congrArg (world.closed ++ ·) closed,
              List.forall_mem_singleton.mpr rfl⟩
        | some tables =>
            refine .inr ⟨fun all => ?_, .unclean
              (congrArg (world.closed ++ ·) closed) ?_⟩
            · cases same.trans all.2
            · intro same
              cases same

/-! ## Runs -/

/-- An event releases all the handles that it takes. -/
def Releases (internalHeader : CString) (parse : CString → Option Json)
    (world : World) : Event → Prop
  | .msgDecoder msg script calls =>
      MessageReleases internalHeader parse msg script calls world.daemon
  | .createDb calls => CreationReleases calls

theorem step_cases {internalHeader : CString}
    {parse : CString → Option Json} {world next : World} {event : Event}
    (stepped : step internalHeader parse world event = some next) :
    Releases internalHeader parse world event ∧ NothingLeft world next ∨
      ¬ Releases internalHeader parse world event ∧ Leaves world next := by
  cases event with
  | msgDecoder msg script calls => exact message_cases stepped
  | createDb calls =>
      cases stepped
      exact creation_cases calls world

/-- A step keeps what nothing was left of exactly if it releases all. -/
theorem nothingLeft_iff {internalHeader : CString}
    {parse : CString → Option Json} {start world next : World} {event : Event}
    (left : NothingLeft start world)
    (stepped : step internalHeader parse world event = some next) :
    NothingLeft start next ↔ Releases internalHeader parse world event := by
  rcases step_cases stepped with ⟨releases, nothing⟩ | ⟨holding, leaves⟩
  · exact iff_of_true (left.trans nothing) releases
  · exact iff_of_false (leaves.not_nothingLeft left) holding

/--
No handle outlives the step in which it was taken, along a run of any length,
exactly if each message and each creation releases all.
-/
theorem handles_released_iff (internalHeader : CString)
    (parse : CString → Option Json) :
    (∀ world event next,
        step internalHeader parse world event = some next →
          (NothingLeft world next ↔
            Releases internalHeader parse world event)) ∧
      ∀ start events,
        StatesSatisfy (step internalHeader parse) (NothingLeft start) start
            events ↔
          StepsMeet (step internalHeader parse)
            (Releases internalHeader parse) start events := by
  constructor
  · intro world event next stepped
    exact nothingLeft_iff (.refl world) stepped
  · intro start events
    apply statesSatisfy_iff_stepsMeet (fun _ _ => True)
    · intro world event rest next _ _
      trivial
    · intro world event rest next _ left stepped
      exact nothingLeft_iff left stepped
    · trivial
    · exact .refl start

/-- A removal without failures leaves the statement of END. -/
theorem removal_leaves_end :
    ¬ ∀ (internalHeader : CString) (parse : CString → Option Json)
        (world : World) (event : Event) (next : World),
        step internalHeader parse world event = some next →
          NothingLeft world next := by
  intro always
  let parse := Json.parse Json.standardRaw
  let code : CString := .lit "8480017439482"
  have decodes : sfPrDecoder parse (Reader.removeMsg code) =
      some (deletionReq, some { Product.zero with code := some code }) :=
    DeletionMessage.decoded_removeMsg Json.standardRaw_printable (by decide)
      (by decide)
      (DeletionMessage.printable_plain Json.standardRaw_printable rfl)
  have isCalled :
      called (.lit "!#+") parse (.lit "!#+" ++ Reader.removeMsg code) =
        some (.dbRemove { Product.zero with code := some code }) := by
    rw [called, if_pos ⟨_, rfl⟩, CString.append_drop, asked, decodes]
    rfl
  let copy : DatabaseSend.Calls :=
    { dbFd := -1, fstat := 0, send := 0, sendfile := [] }
  have daemon := step_daemon (.lit "!#+") parse [] .start
    (.lit "!#+" ++ Reader.removeMsg code) [] copy
  rcases msgDecoder_dispatches decodes (.lit "!#+")
      (DatabaseSend.databaseSend [] copy).1
      { World.start.daemon with script := [] } with
    ⟨retval, after, _, handled, _⟩
  rw [handled] at daemon
  rcases Option.map_eq_some_iff.mp daemon with ⟨next, stepped, _⟩
  rcases step_cases stepped with ⟨releases, _⟩ | ⟨_, leaves⟩
  · rcases releases.operation _ isCalled with fails | fails
    · cases fails
    · simp [fatesLeft] at fails
  · exact leaves.not_nothingLeft (.refl _) (always _ _ _ _ _ stepped)

end SmartFridge.HandleHistory
