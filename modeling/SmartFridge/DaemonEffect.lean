import SmartFridge.Daemon

/-!
# The effect of an operation

`db_insert` and `db_remove` execute a sequence of queries whose constraint
failures are tolerated, up to the first call that fails otherwise.  The frames
of an operation simulate this sequence; without such failures the operation
returns 0 and has executed all of it.
-/

namespace SmartFridge.Daemon

open SmartFridge.Library
open SmartFridge.ProductDecoder
open SmartFridge.Schema

/-! ## The effects -/

/-- The product row is inserted, or else the rows of its name are increased. -/
def storeData (product : Product) (tables : Tables) : Tables :=
  ((Change.insertProductData product).exec tables).getD
    ((Change.incProductNumber product.number product.name).attempt tables)

/-- The tags of one kind are inserted. -/
def storeTags (kind : TagTable) (array : Option (List CString))
    (productCode : Option CString) (tables : Tables) : Tables :=
  (array.getD []).foldl
    (fun tables tag => (insertTagChange kind productCode tag).attempt tables)
    tables

/-- The effect of `db_insert`. -/
def store (product : Product) (tables : Tables) : Tables :=
  (Change.insertImages product.code product.images).attempt <|
    storeTags .additives product.additivesTags product.code <|
      storeTags .allergens product.allergensTags product.code <|
        storeTags .ingredients product.ingredientsTags product.code <|
          storeData product tables

/-- The effect of `db_remove`. -/
def discard (code : Option CString) (tables : Tables) : Tables :=
  Change.cleanEmpty.attempt ((Change.removeProduct code).attempt tables)

/-! ## Sequences of queries -/

/-- The tables, and the fates of the calls to come. -/
structure Situation where
  tables : Tables
  script : List Bool

/-- A call meets its fate. -/
def Situation.meet (situation : Situation) : Except Situation Situation :=
  if situation.script.headD false then
    .error { situation with script := situation.script.tail }
  else
    .ok { situation with script := situation.script.tail }

/-- The query takes effect. -/
def Situation.after (change : Change) (situation : Situation) : Situation :=
  { situation with tables := change.attempt situation.tables }

/-- A step that meets its fate. -/
def stepped (change : Change) (situation : Situation) :
    Except Situation Situation :=
  situation.meet >>= fun situation => .ok (situation.after change)

/-- A query is prepared and stepped. -/
def execute (change : Change) (situation : Situation) :
    Except Situation Situation :=
  situation.meet >>= stepped change

/-- Some queries are executed in turn, up to a failure. -/
def executeAll (changes : List Change) (situation : Situation) :
    Except Situation Situation :=
  changes.foldlM (fun situation change => execute change situation) situation

theorem executeAll_append (first second : List Change)
    (situation : Situation) :
    executeAll (first ++ second) situation =
      executeAll first situation >>= executeAll second := by
  rw [executeAll, List.foldlM_append]
  rfl

/-! ## Frames that follow a sequence -/

/-- The frame has an open database, no transaction and is in this situation. -/
structure Situated (situation : Situation) (frame : Frame) : Prop where
  db : frame.db = true
  tables : frame.state.tables = situation.tables
  script : frame.state.script = situation.script
  idle : frame.state.connections.head?.bind Connection.rollback = none

/-- The frame stops with these tables and has no transaction. -/
structure Stopped (situation : Situation) (frame : Frame) : Prop where
  tables : frame.state.tables = situation.tables
  idle : frame.state.connections.head?.bind Connection.rollback = none

/-- A change of the connection's statements does not touch its transaction. -/
theorem rollback_onConnection
    (state : State) (change : Connection → Connection)
    (keeps : ∀ connection,
      (change connection).rollback = connection.rollback) :
    (state.onConnection change).connections.head?.bind Connection.rollback =
      state.connections.head?.bind Connection.rollback := by
  unfold State.onConnection
  cases state.connections with
  | nil => rfl
  | cons connection others => exact keeps connection

theorem Situated.stopped {situation : Situation} {frame : Frame}
    (situated : Situated situation frame) : Stopped situation frame where
  tables := situated.tables
  idle := situated.idle

theorem Stopped.finalize {situation : Situation} {frame : Frame}
    (stopped : Stopped situation frame) : Stopped situation frame.finalize := by
  unfold Frame.finalize
  cases frame.stmt with
  | none => exact stopped
  | some handle =>
      exact
        { tables := stopped.tables
          idle :=
            (rollback_onConnection frame.state (.release handle.ident)
              fun _ => rfl).trans stopped.idle }

/-- A result of frames follows a run of situations. -/
inductive Simulates (result : Except Frame Frame)
    (run : Except Situation Situation) : Prop
  | reaches {frame : Frame} {situation : Situation}
      (reached : result = .ok frame) (ran : run = .ok situation)
      (situated : Situated situation frame)
  | stops {frame : Frame} {situation : Situation}
      (halted : result = .error frame) (ran : run = .error situation)
      (stopped : Stopped situation frame)

theorem Simulates.bind {result : Except Frame Frame}
    {run : Except Situation Situation}
    {next : Frame → Except Frame Frame}
    {further : Situation → Except Situation Situation}
    (first : Simulates result run)
    (second : ∀ frame situation, result = .ok frame →
      run = .ok situation → Situated situation frame →
        Simulates (next frame) (further situation)) :
    Simulates (result >>= next) (run >>= further) := by
  cases first with
  | reaches reached ran situated =>
      have later := second _ _ reached ran situated
      rw [reached, ran]
      exact later
  | stops halted ran stopped =>
      rw [halted, ran]
      exact .stops rfl rfl stopped

/-- What is done to a frame without a call changes no situation. -/
theorem Simulates.map {result : Except Frame Frame}
    {run : Except Situation Situation} (simulates : Simulates result run)
    (change : Frame → Frame)
    (keeps : ∀ frame situation, Situated situation frame →
      Situated situation (change frame)) :
    Simulates (result >>= fun frame => .ok (change frame)) run := by
  cases simulates with
  | reaches reached ran situated =>
      rw [reached]
      exact .reaches rfl ran (keeps _ _ situated)
  | stops halted ran stopped =>
      rw [halted]
      exact .stops rfl ran stopped

section Situated

variable {situation : Situation} {frame : Frame}
  (situated : Situated situation frame)
include situated

theorem Situated.finalize : Situated situation frame.finalize := by
  unfold Frame.finalize
  cases frame.stmt with
  | none => exact situated
  | some handle =>
      exact
        { db := situated.db
          tables := situated.tables
          script := situated.script
          idle :=
            (rollback_onConnection frame.state (.release handle.ident)
              fun _ => rfl).trans situated.idle }

theorem Situated.clear : Situated situation frame.clear :=
  { db := situated.db
    tables := situated.tables
    script := situated.script
    idle := situated.idle }

theorem Situated.finalizeClear : Situated situation frame.finalize.clear :=
  situated.finalize.clear

theorem Situated.fresh :
    Situated situation
      { state := frame.state, db := frame.db, stmt := none } :=
  { db := situated.db
    tables := situated.tables
    script := situated.script
    idle := situated.idle }

theorem Situated.fails :
    frame.state.fails = situation.script.headD false := by
  rw [State.fails, situated.script]

theorem Situated.prepareV2 (statement : Statement) :
    Simulates (frame.prepareV2 statement) situation.meet := by
  have opened : ¬ frame.db = false := by simp [situated.db]
  rw [Frame.prepareV2, if_neg opened, situated.fails, Situation.meet]
  split
  · exact .stops rfl rfl
      { tables := situated.tables
        idle := situated.idle }
  · exact .reaches rfl rfl
      { db := situated.db
        tables := situated.tables
        script := congrArg List.tail situated.script
        idle :=
          (rollback_onConnection frame.state.proceed
            (.register frame.state.issued) fun _ => rfl).trans situated.idle }

end Situated

/-- A prepared statement is the one that will be stepped. -/
theorem stmt_of_prepared {frame next : Frame} {statement : Statement}
    (prepared : frame.prepareV2 statement = .ok next) :
    next.stmt.map Handle.statement = some statement := by
  unfold Frame.prepareV2 at prepared
  split at prepared
  · cases prepared
  · split at prepared
    · cases prepared
    · cases prepared
      rfl

/-- A step fails, or executes the prepared query, which may meet a constraint. -/
theorem Situated.step {situation : Situation} {frame : Frame}
    {change : Change} (situated : Situated situation frame)
    (prepared : frame.stmt.map Handle.statement = some (.change change)) :
    (∃ next failed, situation.meet = .error failed ∧
        frame.step = (.error, next) ∧ Stopped failed next) ∨
      ∃ next met, situation.meet = .ok met ∧
        frame.step =
          (if change.exec situation.tables = none then .constraint else .done,
            next) ∧
        Situated (met.after change) next := by
  rcases Option.map_eq_some_iff.mp prepared with ⟨handle, held, same⟩
  rw [Frame.step, held]
  simp only [situated.fails, Situation.meet]
  split
  · exact .inl ⟨_, _, rfl, rfl,
      { tables := situated.tables
        idle := situated.idle }⟩
  · have proceeded : frame.state.proceed.tables = situation.tables :=
      situated.tables
    refine .inr
      ⟨{ frame with
          state := (frame.state.proceed.execute (.change change)).2
          stmt := some handle },
        _, rfl, ?_⟩
    rw [same, State.execute, proceeded]
    cases executed : change.exec situation.tables with
    | none =>
        exact ⟨rfl,
          { db := situated.db
            tables := by
              rw [Situation.after, Change.attempt, executed]
              exact situated.tables
            script := congrArg List.tail situated.script
            idle := situated.idle }⟩
    | some changed =>
        exact ⟨rfl,
          { db := situated.db
            tables := by
              rw [Situation.after, Change.attempt, executed]
              rfl
            script := congrArg List.tail situated.script
            idle := situated.idle }⟩

theorem Situated.stepTolerant {situation : Situation} {frame : Frame}
    {change : Change} (situated : Situated situation frame)
    (prepared : frame.stmt.map Handle.statement = some (.change change)) :
    Simulates frame.stepTolerant (stepped change situation) := by
  rw [Frame.stepTolerant, stepped]
  rcases situated.step prepared with
    ⟨next, failed, met, step, stopped⟩ | ⟨next, after, met, step, later⟩
  · rw [met, step]
    exact .stops rfl rfl stopped
  · rw [met, step]
    split
    · next impossible => split at impossible <;> cases impossible
    · next same =>
        rcases Prod.mk.inj same with ⟨_, rfl⟩
        exact .reaches rfl rfl later

/-- A query that cannot violate a constraint is done. -/
theorem Situated.stepDone {situation : Situation} {frame : Frame}
    {change : Change} (situated : Situated situation frame)
    (prepared : frame.stmt.map Handle.statement = some (.change change))
    (possible : change.exec situation.tables ≠ none) :
    Simulates frame.stepDone (stepped change situation) := by
  rw [Frame.stepDone, stepped]
  rcases situated.step prepared with
    ⟨next, failed, met, step, stopped⟩ | ⟨next, after, met, step, later⟩
  · rw [met, step]
    exact .stops rfl rfl stopped
  · rw [met, step, if_neg possible]
    exact .reaches rfl rfl later

/-! ## The operations -/

/-- The start of an operation: the calls of open and of BEGIN's preparation. -/
def begun (situation : Situation) : Except Situation Situation :=
  situation.meet >>= Situation.meet

/-- The queries of `db_insert` on PRODUCTS_DATA. -/
def dataChanges (product : Product) (tables : Tables) : List Change :=
  if (Change.insertProductData product).exec tables = none then
    [.insertProductData product,
      .incProductNumber product.number product.name]
  else
    [.insertProductData product]

/-- The queries of `insert_tags`. -/
def tagChanges (kind : TagTable) (array : Option (List CString))
    (productCode : Option CString) : List Change :=
  (array.getD []).map (insertTagChange kind productCode)

/-- The queries of `db_insert` behind those on PRODUCTS_DATA. -/
def sideChanges (product : Product) : List Change :=
  tagChanges .ingredients product.ingredientsTags product.code ++
    (tagChanges .allergens product.allergensTags product.code ++
      (tagChanges .additives product.additivesTags product.code ++
        [.insertImages product.code product.images]))

/-- The queries of `db_insert`. -/
def insertChanges (product : Product) (tables : Tables) : List Change :=
  dataChanges product tables ++ sideChanges product

/-- The queries of `db_remove`. -/
def removeChanges (code : Option CString) : List Change :=
  [.removeProduct code, .cleanEmpty]

/-- The start of an operation whose database can be opened. -/
theorem openTransaction_simulates {state : State}
    (opens : state.fails = false) :
    Simulates (openTransaction state)
      (begun { tables := state.tables, script := state.script }) := by
  unfold openTransaction begun
  have opened :
      Simulates (Frame.openV2 { state, db := false, stmt := none })
        (Situation.meet { tables := state.tables, script := state.script }) := by
    rw [Frame.openV2, if_neg (by simp [opens]), Situation.meet,
      if_neg (by simpa [State.fails] using opens)]
    exact .reaches rfl rfl
      { db := rfl
        tables := rfl
        script := rfl
        idle := rfl }
  apply opened.bind
  intro frame situation _ _ situated
  exact (situated.prepareV2 .beginTransaction).map Frame.finalize
    fun _ _ later => later.finalize

theorem tables_of_meet {situation met : Situation}
    (ran : situation.meet = .ok met) : met.tables = situation.tables := by
  unfold Situation.meet at ran
  split at ran
  · cases ran
  · cases ran
    rfl

theorem executeAll_cons (change : Change) (rest : List Change)
    (situation : Situation) :
    executeAll (change :: rest) situation =
      execute change situation >>= executeAll rest :=
  rfl

theorem executeAll_singleton (change : Change) (situation : Situation) :
    executeAll [change] situation = execute change situation := by
  rw [executeAll_cons]
  cases execute change situation with
  | error stopped => rfl
  | ok reached => rfl

theorem insertOrIncrease_simulates {situation : Situation}
    {frame : Frame} {product : Product}
    (situated : Situated situation frame)
    (prepared : frame.stmt.map Handle.statement =
      some (.change (.insertProductData product))) :
    Simulates (insertOrIncrease product frame)
      (stepped (.insertProductData product) situation >>=
        executeAll (dataChanges product situation.tables).tail) := by
  rw [insertOrIncrease, stepped, dataChanges]
  rcases situated.step prepared with
    ⟨next, failed, met, step, stopped⟩ | ⟨next, after, met, step, later⟩
  · rw [met, step]
    exact .stops rfl rfl stopped
  · rw [met, step]
    by_cases refused :
        (Change.insertProductData product).exec situation.tables = none
    · rw [if_pos refused, if_pos refused]
      have alone :
          executeAll [.incProductNumber product.number product.name]
              (after.after (.insertProductData product)) =
            execute (.incProductNumber product.number product.name)
              (after.after (.insertProductData product)) :=
        executeAll_singleton _ _
      change Simulates _ (executeAll [_] _)
      rw [alone]
      apply (later.finalize.prepareV2 _).bind
      intro frame situation reached _ situated
      exact situated.stepDone (stmt_of_prepared reached)
        (Option.some_ne_none _)
    · rw [if_neg refused, if_neg refused]
      exact .reaches rfl rfl later

theorem insertProductData_simulates {situation : Situation} {frame : Frame}
    (situated : Situated situation frame) (product : Product) :
    Simulates (insertProductData product frame)
      (executeAll (dataChanges product situation.tables) situation) := by
  have first :
      dataChanges product situation.tables =
        .insertProductData product ::
          (dataChanges product situation.tables).tail := by
    unfold dataChanges
    split
    · rfl
    · rfl
  rw [first, executeAll_cons, execute, bind_assoc]
  unfold insertProductData
  apply (situated.prepareV2 _).bind
  intro frame met reached ran situated
  rw [← tables_of_meet ran]
  exact (insertOrIncrease_simulates situated (stmt_of_prepared reached)).map
    (fun frame => frame.finalize.clear)
    fun _ _ stored => stored.finalizeClear

/-- A function on an open database whose frames follow some queries. -/
def Performs (function : Bool → State → Int × State)
    (changes : List Change) : Prop :=
  ∀ situation frame, Situated situation frame →
    ∃ result, function frame.db frame.state = Frame.leaveInner result ∧
      Simulates result (executeAll changes situation)

theorem Performs.call {function : Bool → State → Int × State}
    {changes : List Change} (performs : Performs function changes)
    {situation : Situation} {frame : Frame}
    (situated : Situated situation frame) (entry : LogEntry) :
    Simulates (frame.call function entry) (executeAll changes situation) := by
  rcases performs situation frame situated with ⟨result, called, simulates⟩
  rw [Frame.call, called]
  cases simulates with
  | reaches reached ran later =>
      rw [reached, ran]
      have finished := later.finalize
      exact .reaches rfl rfl
        { db := situated.db
          tables := finished.tables
          script := finished.script
          idle := finished.idle }
  | stops halted ran stopped =>
      rw [halted, ran]
      have finished := stopped.finalize
      exact .stops rfl rfl
        { tables := finished.tables
          idle := finished.idle }

theorem insertTag_simulates {situation : Situation} {frame : Frame}
    (situated : Situated situation frame)
    (kind : TagTable) (productCode : Option CString) (tag : CString) :
    Simulates (insertTag kind productCode frame tag)
      (execute (insertTagChange kind productCode tag) situation) := by
  unfold insertTag execute
  apply (situated.prepareV2 _).bind
  intro frame met reached _ situated
  exact (situated.stepTolerant (stmt_of_prepared reached)).map
    (fun frame => frame.finalize.clear)
    fun _ _ stored => stored.finalizeClear

/-- The loop of `insert_tags`, by induction on the tags. -/
theorem insertTags_loop (kind : TagTable) (productCode : Option CString)
    (tags : List CString) {situation : Situation} {frame : Frame}
    (situated : Situated situation frame) :
    Simulates (tags.foldlM (insertTag kind productCode) frame)
      (executeAll (tags.map (insertTagChange kind productCode)) situation) := by
  induction tags generalizing situation frame with
  | nil => exact .reaches rfl rfl situated
  | cons tag rest ih =>
      rw [List.foldlM_cons, List.map_cons, executeAll_cons]
      apply (insertTag_simulates situated kind productCode tag).bind
      intro next after _ _ stored
      exact ih stored

theorem insertTags_performs (kind : TagTable)
    (array : Option (List CString)) (productCode : Option CString) :
    Performs (insertTags kind array productCode)
      (tagChanges kind array productCode) :=
  fun _ _ situated =>
    ⟨_, rfl, insertTags_loop kind productCode (array.getD []) situated.fresh⟩

theorem insertImages_performs
    (images : ProductImages) (productCode : Option CString) :
    Performs (insertImages images productCode)
      [.insertImages productCode images] := by
  intro situation frame situated
  refine ⟨_, rfl, ?_⟩
  rw [executeAll_singleton, execute]
  apply (situated.fresh.prepareV2 _).bind
  intro frame met reached _ situated
  exact (situated.stepTolerant (stmt_of_prepared reached)).map
    (fun frame => frame.finalize.clear)
    fun _ _ stored => stored.finalizeClear

/-- The result of an operation is that of a run. -/
inductive Ends (result : Int × State) (run : Except Situation Situation) :
    Prop
  | succeeds {situation : Situation} (ran : run = .ok situation)
      (returned : result.1 = 0) (tables : result.2.tables = situation.tables)
      (script : result.2.script = situation.script.tail)
  | fails {situation : Situation} (ran : run = .error situation)
      (returned : result.1 = 1) (tables : result.2.tables = situation.tables)

theorem Ends.of_ok {result : Int × State} {situation : Situation}
    (ends : Ends result (.ok situation)) :
    result.1 = 0 ∧ result.2.tables = situation.tables ∧
      result.2.script = situation.script.tail := by
  cases ends with
  | succeeds ran returned tables script =>
      cases ran
      exact ⟨returned, tables, script⟩
  | fails ran returned tables => cases ran

theorem Ends.of_error {result : Int × State} {situation : Situation}
    (ends : Ends result (.error situation)) :
    result.1 = 1 ∧ result.2.tables = situation.tables := by
  cases ends with
  | succeeds ran returned tables script => cases ran
  | fails ran returned tables =>
      cases ran
      exact ⟨returned, tables⟩

/-- Without a transaction, closing changes no table. -/
theorem close_idle {state : State}
    (idle : state.connections.head?.bind Connection.rollback = none) :
    state.close.tables = state.tables ∧ state.close.script = state.script := by
  unfold State.close
  cases connected : state.connections with
  | nil => exact ⟨rfl, rfl⟩
  | cons connection others =>
      rw [connected] at idle
      have noRollback : connection.rollback = none := idle
      simp only [noRollback, Option.getD_none]
      split
      · exact ⟨rfl, rfl⟩
      · exact ⟨rfl, rfl⟩

/-- The frame behind the preparation of END, whether that fails or not. -/
def ended (frame : Frame) : Frame :=
  match frame.prepareV2 .endTransaction with
  | .ok frame => frame
  | .error frame => frame

theorem ended_stopped {situation : Situation} {frame : Frame}
    (stopped : Stopped situation frame) : Stopped situation (ended frame) := by
  unfold ended Frame.prepareV2
  by_cases closed : frame.db = false
  · rw [if_pos closed]
    exact ⟨stopped.tables, stopped.idle⟩
  · rw [if_neg closed]
    by_cases fails : frame.state.fails = true
    · rw [if_pos fails]
      exact ⟨stopped.tables, stopped.idle⟩
    · rw [if_neg fails]
      exact
        { tables := stopped.tables
          idle :=
            (rollback_onConnection frame.state.proceed
              (.register frame.state.issued) fun _ => rfl).trans stopped.idle }

theorem ended_script {frame : Frame} (opened : frame.db = true) :
    (ended frame).state.script = frame.state.script.tail := by
  unfold ended Frame.prepareV2
  rw [if_neg (by simp [opened])]
  by_cases fails : frame.state.fails = true
  · rw [if_pos fails]
    rfl
  · rw [if_neg fails]
    rfl

theorem ended_db (frame : Frame) : (ended frame).db = frame.db := by
  unfold ended Frame.prepareV2
  by_cases closed : frame.db = false
  · rw [if_pos closed]
  · rw [if_neg closed]
    by_cases fails : frame.state.fails = true
    · rw [if_pos fails]
    · rw [if_neg fails]

/-- The end of an operation keeps the tables, as there is no transaction. -/
theorem leave_ends {result : Except Frame Frame}
    {run : Except Situation Situation} (simulates : Simulates result run) :
    Ends (Frame.leave result) run := by
  cases simulates with
  | @reaches frame situation reached ran situated =>
      subst reached
      have stopped := ended_stopped situated.finalize.stopped
      have opened := (ended_db frame.finalize).trans situated.finalize.db
      have closed := close_idle stopped.idle
      have left :
          Frame.leave (.ok frame) = (0, (ended frame.finalize).state.close) := by
        rw [Frame.leave]
        exact congrArg (Prod.mk 0) (if_pos opened)
      rw [left]
      exact .succeeds ran rfl (closed.1.trans stopped.tables)
        (closed.2.trans
          ((ended_script situated.finalize.db).trans
            (congrArg List.tail situated.finalize.script)))
  | @stops frame situation halted ran stopped =>
      subst halted
      have later := ended_stopped stopped.finalize
      have closed := close_idle later.idle
      have left :
          Frame.leave (.error frame) =
            (1, if (ended frame.finalize).db then
                (ended frame.finalize).state.close
              else (ended frame.finalize).state) :=
        rfl
      rw [left]
      refine .fails ran rfl ?_
      dsimp only
      split
      · exact closed.1.trans later.tables
      · exact later.tables

theorem leave_unopened {frame : Frame} (closed : frame.db = false)
    (unprepared : frame.stmt = none) :
    Frame.leave (.error frame) = (1, frame.state) := by
  simp [Frame.leave, Frame.finalize, Frame.prepareV2, closed, unprepared]

/-- An operation is its queries behind the start. -/
theorem operation_ends (state : State) (changes : Tables → List Change)
    {body : Frame → Except Frame Frame}
    (follows : ∀ frame situation, Situated situation frame →
      Simulates (body frame)
        (executeAll (changes situation.tables) situation)) :
    Ends (Frame.leave (openTransaction state >>= body))
      (begun { tables := state.tables, script := state.script } >>=
        fun situation => executeAll (changes situation.tables) situation) := by
  cases opens : state.fails with
  | false =>
      apply leave_ends
      apply (openTransaction_simulates opens).bind
      intro frame situation _ _ situated
      exact follows frame situation situated
  | true =>
      have unopened :
          openTransaction state =
            .error { state := state.proceed, db := false, stmt := none } := by
        simp [openTransaction, Frame.openV2, opens, bind, Except.bind]
      have failed : state.script.headD false = true := opens
      rw [unopened, begun, Situation.meet, if_pos failed]
      exact .fails rfl (congrArg Prod.fst (leave_unopened rfl rfl))
        (congrArg (fun result => result.2.tables) (leave_unopened rfl rfl))

/-- What `db_insert` does between the start and the label `end`. -/
def insertSteps (product : Product) (frame : Frame) : Except Frame Frame := do
  let frame ← insertProductData product frame
  let frame ← frame.call
    (insertTags .ingredients product.ingredientsTags product.code)
    (.tagsInsertError .ingredients)
  let frame ← frame.call
    (insertTags .allergens product.allergensTags product.code)
    (.tagsInsertError .allergens)
  let frame ← frame.call
    (insertTags .additives product.additivesTags product.code)
    (.tagsInsertError .additives)
  frame.call (insertImages product.images product.code) .productImagesError

/-- What `db_remove` does between the start and the label `end`. -/
def removeSteps (product : Product) (frame : Frame) : Except Frame Frame := do
  let frame ← frame.prepareV2 (.change (.removeProduct product.code))
  let frame ← frame.stepDone
  let frame ← frame.finalize.prepareV2 (.change .cleanEmpty)
  frame.stepDone

theorem insertSteps_simulates {situation : Situation} {frame : Frame}
    (situated : Situated situation frame) (product : Product) :
    Simulates (insertSteps product frame)
      (executeAll (insertChanges product situation.tables) situation) := by
  rw [insertChanges, executeAll_append]
  apply (insertProductData_simulates situated product).bind
  intro frame situation _ _ situated
  rw [sideChanges, executeAll_append]
  apply ((insertTags_performs _ _ _).call situated _).bind
  intro frame situation _ _ situated
  rw [executeAll_append]
  apply ((insertTags_performs _ _ _).call situated _).bind
  intro frame situation _ _ situated
  rw [executeAll_append]
  apply ((insertTags_performs _ _ _).call situated _).bind
  intro frame situation _ _ situated
  exact (insertImages_performs _ _).call situated _

theorem removeSteps_simulates {situation : Situation} {frame : Frame}
    (situated : Situated situation frame) (product : Product) :
    Simulates (removeSteps product frame)
      (executeAll (removeChanges product.code) situation) := by
  rw [removeChanges, executeAll_cons, execute, bind_assoc]
  apply (situated.prepareV2 _).bind
  intro frame situation reached _ situated
  apply (situated.stepDone (stmt_of_prepared reached)
    (Option.some_ne_none _)).bind
  intro frame situation _ _ situated
  rw [executeAll_singleton, execute]
  apply (situated.finalize.prepareV2 _).bind
  intro frame situation reached _ situated
  exact situated.stepDone (stmt_of_prepared reached) (Option.some_ne_none _)

/-! ## Calls -/

/-- A call of one of the two operations on the tables. -/
inductive Call where
  | dbInsert (prDec : Product)
  | dbRemove (prDec : Product)

/-- The product that is passed. -/
def Call.prDec : Call → Product
  | .dbInsert prDec => prDec
  | .dbRemove prDec => prDec

/-- The call itself. -/
def Call.perform : Call → State → Int × State
  | .dbInsert prDec => Daemon.dbInsert prDec
  | .dbRemove prDec => Daemon.dbRemove prDec

/-- What a call does between the start and the label `end`. -/
def Call.steps : Call → Frame → Except Frame Frame
  | .dbInsert prDec => insertSteps prDec
  | .dbRemove prDec => removeSteps prDec

theorem Call.perform_eq (call : Call) (state : State) :
    call.perform state =
      Frame.leave (openTransaction state >>= call.steps) := by
  cases call with
  | dbInsert prDec => rfl
  | dbRemove prDec => rfl

/-- The queries of a call, which depend on whether a row can be inserted. -/
def Call.changes : Call → Tables → List Change
  | .dbInsert prDec, tables => insertChanges prDec tables
  | .dbRemove prDec, _ => removeChanges prDec.code

/-- The effect of a call without failures. -/
def Call.effect : Call → Tables → Tables
  | .dbInsert prDec => store prDec
  | .dbRemove prDec => discard prDec.code

/-- The effect of some queries whose constraint failures are tolerated. -/
def attemptAll (changes : List Change) (tables : Tables) : Tables :=
  changes.foldl (fun tables change => change.attempt tables) tables

theorem Call.steps_simulates (call : Call) {situation : Situation}
    {frame : Frame} (situated : Situated situation frame) :
    Simulates (call.steps frame)
      (executeAll (call.changes situation.tables) situation) := by
  cases call with
  | dbInsert prDec => exact insertSteps_simulates situated prDec
  | dbRemove prDec => exact removeSteps_simulates situated prDec

theorem Call.perform_ends (call : Call) (state : State) :
    Ends (call.perform state)
      (begun { tables := state.tables, script := state.script } >>=
        fun situation =>
          executeAll (call.changes situation.tables) situation) := by
  rw [call.perform_eq]
  exact operation_ends state call.changes
    fun _ _ situated => call.steps_simulates situated

/-- All the queries of a call together have its effect. -/
theorem Call.attemptAll_changes (call : Call) (tables : Tables) :
    attemptAll (call.changes tables) tables = call.effect tables := by
  cases call with
  | dbInsert prDec =>
      have data :
          attemptAll (dataChanges prDec tables) tables =
            storeData prDec tables := by
        unfold dataChanges storeData
        cases inserted : (Change.insertProductData prDec).exec tables with
        | none =>
            rw [if_pos rfl, Option.getD_none, attemptAll, List.foldl_cons,
              Change.attempt, inserted]
            rfl
        | some changed =>
            rw [if_neg (Option.some_ne_none _), Option.getD_some, attemptAll,
              List.foldl_cons, Change.attempt, inserted]
            rfl
      rw [Call.changes, insertChanges, Call.effect, store, ← data]
      simp only [attemptAll, sideChanges, tagChanges, storeTags,
        List.foldl_append, List.foldl_map]
      rfl
  | dbRemove prDec => rfl

theorem executeAll_undisturbed (changes : List Change) (tables : Tables) :
    executeAll changes { tables, script := [] } =
      .ok { tables := attemptAll changes tables, script := [] } := by
  induction changes generalizing tables with
  | nil => rfl
  | cons change rest ih =>
      rw [executeAll_cons]
      exact ih (change.attempt tables)

/-- A call without failures returns 0 and has all of its effect. -/
theorem Call.perform_effect (call : Call) {state : State}
    (script : state.script = []) :
    ∃ after, call.perform state = (0, after) ∧
      after.script = [] ∧ after.tables = call.effect state.tables := by
  have ends := call.perform_ends state
  rw [script, begun] at ends
  have ran := executeAll_undisturbed (call.changes state.tables) state.tables
  rw [call.attemptAll_changes] at ran
  change Ends _ (executeAll _ { tables := state.tables, script := [] }) at ends
  rw [ran] at ends
  rcases ends.of_ok with ⟨returned, tables, later⟩
  exact ⟨_, Prod.ext returned rfl, later, tables⟩

/-- `db_insert` without failures. -/
theorem dbInsert_effect (product : Product) {state : State}
    (script : state.script = []) :
    ∃ after, dbInsert product state = (0, after) ∧
      after.script = [] ∧ after.tables = store product state.tables :=
  (Call.dbInsert product).perform_effect script

/-- `db_remove` without failures. -/
theorem dbRemove_effect (product : Product) {state : State}
    (script : state.script = []) :
    ∃ after, dbRemove product state = (0, after) ∧
      after.script = [] ∧
        after.tables = discard product.code state.tables :=
  (Call.dbRemove product).perform_effect script

end SmartFridge.Daemon
